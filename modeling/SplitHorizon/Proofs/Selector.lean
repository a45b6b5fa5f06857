import SplitHorizon.Proofs.Network
import SplitHorizon.Proofs.Text.Blank
import SplitHorizon.Selector
/-!
# Selectors and the clients they are for

A selector that is a network is for the clients whose canonical form shares the leading bits of the
network (`contains_network`). A selector that is an address is for the one client with this
canonical form (`contains_address`). A client's form under `::ffff:a.b.c.d` is undone before it is
compared, and the address of a selector stays as it is written: a selector in that form is for no
client.

A selector is read from the text that it is rendered as (`ofText_render`), so showing one loses
nothing of it.
-/

namespace SplitHorizon

/-- The canonical form of an address is canonical. -/
theorem Address.canonical_canonical (a : Address) : a.canonical.canonical = a.canonical := by
  cases a with
  | v4 bits => rfl
  | v6 bits =>
    cases h : mapped? bits with
    | none => simp [canonical, h]
    | some inner => simp [canonical, h]

namespace Selector

open Network (Spelled)

/-! ## Texts -/

/-- A text with a character that is not in the word is not the default selector. -/
theorem sameLetters_default_of_mem {cs : List Char} {c : Char} (hc : c ∈ cs)
    (hdefault : c.toLower ∉ "default".toList) : ¬ Text.sameLetters cs "default".toList = true := by
  rw [Text.sameLetters, beq_iff_eq]
  intro h
  have hmem : c.toLower ∈ Text.fold cs := List.mem_map_of_mem hc
  rw [h] at hmem
  exact hdefault hmem

/-- No text of a network is a spelling of `default`. -/
theorem sameLetters_default_of_spelled {cs : List Char} {a : Address} {n : Nat}
    (h : Spelled cs a n) : ¬ Text.sameLetters cs "default".toList = true := by
  rcases h.address_or_slash with ⟨hread, -⟩ | hslash
  · rcases (Address.goesOn_of_read hread).2 with hdot | hcolons
    · exact sameLetters_default_of_mem hdot (by decide)
    · have hcolon : ':' ∈ cs := List.count_pos_iff.mp (Nat.lt_of_lt_of_le (by decide) hcolons)
      exact sameLetters_default_of_mem hcolon (by decide)
  · exact sameLetters_default_of_mem hslash (by decide)

/-- **What is read as `default`** is the word itself, in letters of any size. -/
theorem read_default_iff {cs : List Char} :
    read cs = .ok .default ↔ Text.sameLetters (Text.trim cs) "default".toList = true := by
  rw [read]
  by_cases h : Text.sameLetters (Text.trim cs) "default".toList = true
  · simp only [h, if_true]
  · simp only [h, Bool.false_eq_true, if_false, iff_false]
    split
    · exact nofun
    · split
      · split <;> exact nofun
      · exact nofun

/-- **What is read as a network** is a text that writes its address and its length. -/
theorem read_network_iff {cs : List Char} {net : Network} :
    read cs = .ok (.network net) ↔ Spelled (Text.trim cs) net.address net.length := by
  rw [read]
  generalize Text.trim cs = text
  constructor
  · intro h
    split at h
    · cases h
    · split at h
      · rename_i a hread
        cases h
        simpa using Spelled.literal hread
      · split at h
        · split at h
          · rename_i hnet
            cases h
            exact (Network.read_eq_some_iff.mp hnet).2
          · cases h
        · cases h
  · intro h
    rw [if_neg (sameLetters_default_of_spelled h)]
    rcases h.address_or_slash with ⟨hread, hlength⟩ | hslash
    · have hnet : Network.single net.address = net :=
        Network.eq_of_address_eq_of_length_eq (by simp) (by simp [hlength])
      rw [hread]
      simp only [hnet]
    · have haddress : Address.read text = none := by
        rw [Option.eq_none_iff_forall_ne_some]
        intro a hread
        exact Network.slash_notMem_of_read hread hslash
      have hnet := Network.read_eq_some_iff.mpr ⟨hslash, h⟩
      simp [haddress, hslash, hnet]

/-- How a text writes a selector. -/
def IsWrittenAs : Selector → List Char → Prop
  | default, cs => Text.sameLetters cs "default".toList = true
  | network net, cs => Spelled cs net.address net.length

/-- **What is read as a selector** is a text that writes it, with blanks around. -/
theorem read_eq_ok_iff {cs : List Char} {c : Selector} :
    read cs = .ok c ↔ c.IsWrittenAs (Text.trim cs) := by
  cases c with
  | default => exact read_default_iff
  | network net => exact read_network_iff

/-- The text of a selector writes it. -/
theorem isWrittenAs_render (c : Selector) : c.IsWrittenAs c.render := by
  cases c with
  | default => rfl
  | network net => exact (Network.read_eq_some_iff.mp net.read_render).2

/-- There is no blank in the text of a selector. -/
theorem isBlank_of_mem_render {c : Selector} {d : Char} (h : d ∈ c.render) :
    Text.isBlank d = false := by
  cases c with
  | default =>
    have hblank : "default".toList.any Text.isBlank = false := by decide
    exact eq_false_of_ne_true (List.any_eq_false.mp hblank d h)
  | network net => exact Network.isBlank_of_mem_render h

/-- **A selector is read from the text that it is rendered as.** -/
theorem ofText_render (c : Selector) : ofText (String.ofList c.render) = .ok c := by
  have htrim : Text.trim c.render = c.render :=
    Text.trim_eq_self fun _ => isBlank_of_mem_render
  rw [ofText, read_eq_ok_iff, String.toList_ofList, htrim]
  exact c.isWrittenAs_render

/-- **Rendering and reading a selector that was read gives the selector again**, in whichever way
its text wrote it: so what is shown stands for the same clients and is as narrow. Every network is
read from its text, with the bits behind the leading ones. -/
theorem ofText_render_of_ofText :
    (∀ text c, ofText text = .ok c ↔ c.IsWrittenAs (Text.trim text.toList)) ∧
    (∀ text c, ofText text = .ok c → ofText (String.ofList c.render) = .ok c ∧
      ∀ shown, ofText (String.ofList c.render) = .ok shown →
        shown.specificity = c.specificity ∧
          ∀ client, shown.contains client = c.contains client) ∧
    ∀ net : Network, Network.read net.render = some net ∧
      ofText (String.ofList net.render) = .ok (.network net) := by
  refine ⟨fun text c => read_eq_ok_iff, fun text c _ => ⟨ofText_render c, fun shown hshown => ?_⟩,
    fun net => ⟨net.read_render, ofText_render (.network net)⟩⟩
  rw [ofText_render c] at hshown
  cases hshown
  exact ⟨rfl, fun _ => rfl⟩

/-- A netmask is shown as the number of its ones, and the form of 128 bits of an address of 32 bits
keeps its colons. -/
theorem ofText_render_of_ofText_netmask :
    ofText " 10.1.2.3/255.255.0.0" = .ok (.network (.v4 0x0a010203 16 (by decide))) ∧
      ofText "10.1.2.3/16" = .ok (.network (.v4 0x0a010203 16 (by decide))) ∧
      ofText "0:0::FFFF:a00:1\t" = .ok (.network (.single (.v6 0xffff0a000001))) ∧
      ofText "::ffff:10.0.0.1/128" = .ok (.network (.single (.v6 0xffff0a000001))) ∧
      IsWrittenAs .default "DEFAULT".toList ∧ ofText "default" = .ok .default := by
  obtain ⟨hwritten, hstable, -⟩ := ofText_render_of_ofText
  have hmask : ofText " 10.1.2.3/255.255.0.0" =
      .ok (.network (.v4 0x0a010203 16 (by decide))) := by decide +kernel
  have hmapped : ofText "0:0::FFFF:a00:1\t" = .ok (.network (.single (.v6 0xffff0a000001))) := by
    decide +kernel
  have hdefault : ofText "DEFAULT" = .ok .default := by decide +kernel
  have hbits : String.ofList (Network.v4 0x0a010203 16 (by decide)).render = "10.1.2.3/16" := by
    decide +kernel
  have hcolons : String.ofList (Network.single (.v6 0xffff0a000001)).render =
      "::ffff:10.0.0.1/128" := by
    decide +kernel
  refine ⟨hmask, ?_, hmapped, ?_, (hwritten _ _).mp hdefault, (hstable _ _ hdefault).1⟩
  · rw [← hbits]
    exact (hstable _ _ hmask).1
  · rw [← hcolons]
    exact (hstable _ _ hmapped).1

/-! ## Networks -/

/-- **A network is for the clients that share its leading bits** in their canonical form, with those
that the selector's text says; and of two networks for one client the one that is at least as narrow
lies in the other, so that to take the narrowest first is to take the smallest set of clients
first. -/
theorem contains_network :
    (∀ text a n, (∃ net : Network, ofText text = .ok (.network net) ∧ net.address = a ∧
        net.length = n) ↔ Spelled (Text.trim text.toList) a n) ∧
    (∀ net client, (network net).contains client = true ↔
      client.canonical.width = net.address.width ∧
        ∀ i < net.length, client.canonical.bit i = net.address.bit i) ∧
    ∀ (a b : Selector) (m n : Nat) (client : Address), a.specificity = some m →
      b.specificity = some n → n ≤ m → a.contains client = true → b.contains client = true →
      ∀ ip, a.contains ip = true → b.contains ip = true := by
  refine ⟨fun text a n => ⟨?_, fun h => ?_⟩, fun net client => Network.contains_iff, ?_⟩
  · rintro ⟨net, hread, rfl, rfl⟩
    exact read_network_iff.mp hread
  · obtain ⟨net, rfl, rfl⟩ := Network.exists_network h.le_width
    exact ⟨net, read_network_iff.mpr h, rfl, rfl⟩
  · intro a b m n client ha hb hle hshared hshared' ip hip
    cases a with
    | default => cases ha
    | network net =>
      cases b with
      | default => cases hb
      | network net' =>
        cases ha
        cases hb
        exact Network.contains_of_length_le hshared hshared' hle hip

/-- A netmask, a host's bits behind the leading ones and a client under its form of 128 bits. -/
theorem contains_network_netmask :
    ofText " 10.1.2.3/255.255.0.0" = .ok (.network (.v4 0x0a010203 16 (by decide))) ∧
      ofText "10.9.9.9/8" = .ok (.network (.v4 0x0a090909 8 (by decide))) ∧
      Spelled (Text.trim " 10.1.2.3/255.255.0.0".toList) (.v4 0x0a010203) 16 ∧
      ∀ ip, (network (.v4 0x0a010203 16 (by decide))).contains ip = true →
        (network (.v4 0x0a090909 8 (by decide))).contains ip = true := by
  have hnarrow : ofText " 10.1.2.3/255.255.0.0" =
      .ok (.network (.v4 0x0a010203 16 (by decide))) := by decide +kernel
  have hwide : ofText "10.9.9.9/8" = .ok (.network (.v4 0x0a090909 8 (by decide))) := by
    decide +kernel
  obtain ⟨htext, -, hnested⟩ := contains_network
  refine ⟨hnarrow, hwide, (htext _ _ _).mp ⟨_, hnarrow, rfl, rfl⟩, ?_⟩
  exact hnested _ _ 16 8 (.v6 0xffff0a01ffff) rfl rfl (by decide) (by decide +kernel)
    (by decide +kernel)

/-! ## Addresses -/

/-- **An address is for the one client with this canonical form**, whichever text of the address the
selector is read from. That is the client whose canonical form is the address's own, if the address
is canonical. If it is not, the selector is for no client. -/
theorem contains_address (a : Address) :
    ofText a.toText = .ok (.network (.single a)) ∧
    ∀ text, Address.read (Text.trim text.toList) = some a →
      ofText text = .ok (.network (.single a)) ∧
      (∀ client, (network (.single a)).contains client = true ↔ client.canonical = a) ∧
      ((∀ client, (network (.single a)).contains client = true ↔
        a.canonical = client.canonical) ↔ a.canonical = a) ∧
      (a.canonical ≠ a → ∀ client, (network (.single a)).contains client = false) := by
  have hcontains : ∀ client, (network (.single a)).contains client = true ↔ client.canonical = a :=
    fun client => Network.contains_single_iff
  have hread : ∀ text, Address.read (Text.trim text.toList) = some a →
      ofText text = .ok (.network (.single a)) := by
    intro text h
    rw [ofText, read_network_iff, Network.address_single, Network.length_single]
    exact .literal h
  refine ⟨hread _ ?_, fun text h => ⟨hread text h, hcontains, ⟨fun hsame => ?_, ?_⟩, ?_⟩⟩
  · have hblank : ∀ c ∈ a.render, Text.isBlank c = false := fun _ => Address.isBlank_of_mem_render
    rw [Address.toText, String.toList_ofList, Text.trim_eq_self hblank, Address.read_render]
  · exact (hcontains a).mp ((hsame a).mpr rfl)
  · intro hcanonical client
    rw [hcontains, hcanonical, eq_comm]
  · intro hother client
    rw [← Bool.not_eq_true, hcontains]
    rintro rfl
    exact hother client.canonical_canonical

/-- A selector in the form `::ffff:a.b.c.d` is for no client, not even for the one that arrives
under the same form. -/
theorem contains_mapped :
    ofText "::ffff:10.0.0.1" = .ok (.network (.single (.v6 0xffff0a000001))) ∧
      (Address.v6 0xffff0a000001).canonical = (Address.v4 0x0a000001).canonical ∧
      (network (.single (.v6 0xffff0a000001))).contains (.v6 0xffff0a000001) = false ∧
      (network (.single (.v6 0xffff0a000001))).contains (.v4 0x0a000001) = false := by
  decide +kernel

/-- An address of 32 bits is for itself and for its form of 128 bits. -/
theorem contains_address_dotted :
    ofText " 10.0.0.1" = .ok (.network (.single (.v4 0x0a000001))) ∧
      (network (.single (.v4 0x0a000001))).contains (.v6 0xffff0a000001) = true ∧
      ∀ client, (network (.single (.v4 0x0a000001))).contains client = true ↔
        (Address.v4 0x0a000001).canonical = client.canonical := by
  obtain ⟨-, hall⟩ := contains_address (.v4 0x0a000001)
  obtain ⟨hread, hcontains, hsame, -⟩ := hall " 10.0.0.1" (by decide +kernel)
  exact ⟨hread, (hcontains _).mpr rfl, hsame.mpr rfl⟩

end Selector

end SplitHorizon
