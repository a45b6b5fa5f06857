import SplitHorizon.Proofs.Wire.Reader
import SplitHorizon.Wire.Name
/-!
# Names as they are read

Every name that is read off a message can stand in a message: its labels and its size are in their
bounds (`ensures_readName`). Pointers add little to a name near the front of a message, because they
lead backwards: behind a run that starts at an offset, the labels have fewer bytes than stand before
that offset (`follow_spec`).

A name that can stand in a message is read back from its labels and the root (`reads_readName`),
whatever the message.
-/

namespace SplitHorizon.Wire

open DomainName (fits span)

/-! ## Runs -/

/-- A label fits exactly if it has from one to 63 bytes. -/
theorem fits_iff {label : List UInt8} :
    fits label = true ↔ 0 < label.length ∧ label.length < 64 := by
  rw [fits, Bool.and_eq_true, Bool.not_eq_true', ← Bool.not_eq_true, List.isEmpty_iff,
    decide_eq_true_eq, DomainName.maxLabel, ← ne_eq, ← List.length_pos_iff, Nat.lt_succ_iff]

theorem span_append (labels more : List (List UInt8)) :
    span (labels ++ more) = span labels + span more := by
  induction labels with
  | nil => exact (Nat.zero_add _).symm
  | cons label labels ih =>
    show label.length + 1 + span (labels ++ more) = label.length + 1 + span labels + span more
    rw [ih]
    omega

/-- The labels of a run fit, and the run and the bytes behind it are all bytes. -/
theorem readRun_spec {bytes : List UInt8} {r : Run} (h : readRun bytes = some r) :
    (∀ l ∈ r.labels, fits l = true) ∧ bytes.length = r.size + r.rest.length := by
  fun_induction readRun bytes generalizing r with
  | case1 => cases h
  | case2 rest =>
    cases h
    exact ⟨nofun, Nat.add_comm _ _⟩
  | case3 => cases h
  | case4 b rest hb hsmall label rest' hsplit ih =>
    obtain ⟨r', hr', rfl⟩ := Option.map_eq_some_iff.mp h
    obtain ⟨hfits, hlength⟩ := ih hr'
    obtain ⟨hlabel, rfl⟩ := splitExactly_eq_some_iff.mp hsplit
    have hlt : b.toNat < 64 := UInt8.lt_iff_toNat_lt.mp hsmall
    have hpos : 0 < b.toNat := Nat.pos_of_ne_zero fun h0 => hb (UInt8.toNat_inj.mp h0)
    refine ⟨fun l hl => ?_, ?_⟩
    · rcases List.mem_cons.mp hl with rfl | hl
      · exact fits_iff.mpr (hlabel ▸ ⟨hpos, hlt⟩)
      · exact hfits l hl
    · show (label ++ rest').length + 1 = label.length + 1 + span r'.labels + r'.ending.size +
        r'.rest.length
      rw [Run.size] at hlength
      rw [List.length_append]
      omega
  | case5 => cases h
  | case6 => cases h
  | case7 b hb hsmall hlarge c rest =>
    cases h
    refine ⟨nofun, ?_⟩
    show rest.length + 2 = 0 + 2 + rest.length
    omega

/-- Behind a run that starts at an offset, the labels have fewer bytes than there are before it. -/
theorem follow_spec {message : List UInt8} {start : Nat} {ending : RunEnd}
    {more : List (List UInt8)} (h : follow message start ending = some more) :
    (∀ l ∈ more, fits l = true) ∧ span more ≤ start ∧ (ending ≠ .root → span more < start) := by
  induction start using Nat.strongRecOn generalizing ending more with
  | ind start ih =>
    cases ending with
    | root =>
      rw [follow] at h
      cases h
      exact ⟨fun l hl => absurd hl List.not_mem_nil, Nat.zero_le _, fun hroot => absurd rfl hroot⟩
    | pointer target =>
      rw [follow] at h
      split at h
      · rename_i htarget
        obtain ⟨r, hr, h⟩ := Option.bind_eq_some_iff.mp h
        split at h
        · rename_i hbefore
          obtain ⟨more', hmore, h⟩ := Option.bind_eq_some_iff.mp h
          cases h
          obtain ⟨hfits, hspan, _⟩ := ih target htarget hmore
          have hlt : span (r.labels ++ more') < start := by
            rw [span_append]
            omega
          refine ⟨fun l hl => ?_, Nat.le_of_lt hlt, fun _ => hlt⟩
          rcases List.mem_append.mp hl with hl | hl
          · exact (readRun_spec hr).1 l hl
          · exact hfits l hl
        · cases h
      · cases h

/-! ## Names that are read -/

/-- A name that is read can stand in a message. It is as long as the bytes that were taken for it,
but for what a pointer leads to. -/
theorem ensures_readName (message : List UInt8) (offset : Nat) :
    Reader.Ensures offset (readName message) fun name n =>
      name.Valid ∧ name.absolute = true ∧ name.size ≤ n + (offset - 2) ∧ 0 < n := by
  intro bytes name c h
  obtain ⟨r, hr, h⟩ := Option.bind_eq_some_iff.mp h
  obtain ⟨more, hmore, h⟩ := Option.bind_eq_some_iff.mp h
  obtain ⟨hfits, hlength⟩ := readRun_spec hr
  obtain ⟨hfits', _, hspan⟩ := follow_spec hmore
  simp only at h
  split at h
  · rename_i hsize
    cases h
    have hvalid : (DomainName.ofLabels (r.labels ++ more)).Valid :=
      ⟨fun l hl => (List.mem_append.mp hl).elim (hfits l) (hfits' l), hsize⟩
    refine ⟨r.size, rfl, hlength, hvalid, rfl, ?_, ?_⟩
    · show span (r.labels ++ more) + 1 ≤ span r.labels + r.ending.size + (offset - 2)
      rw [span_append]
      cases hending : r.ending with
      | root =>
        rw [hending, follow] at hmore
        cases hmore
        show span r.labels + 0 + 1 ≤ span r.labels + 1 + (offset - 2)
        omega
      | pointer target =>
        have hlt : span more < offset := hspan fun hroot => by rw [hending] at hroot; cases hroot
        show span r.labels + span more + 1 ≤ span r.labels + 2 + (offset - 2)
        omega
    · show 0 < span r.labels + r.ending.size
      cases r.ending <;> exact Nat.succ_pos _
  · cases h

/-! ## Names that were written -/

theorem length_putLabels (labels : List (List UInt8)) :
    (putLabels labels).length = span labels := by
  induction labels with
  | nil => rfl
  | cons label labels ih =>
    show (putString label ++ putLabels labels).length = label.length + 1 + span labels
    rw [List.length_append, ih]
    rfl

/-- The bytes of labels and the root are read as a run of these labels. -/
theorem readRun_putLabels {labels : List (List UInt8)} (h : ∀ l ∈ labels, fits l = true)
    (rest : List UInt8) : readRun (putLabels labels ++ 0 :: rest) = some ⟨labels, .root, rest⟩ := by
  induction labels with
  | nil =>
    show readRun (0 :: rest) = _
    rw [readRun.eq_def]
    rfl
  | cons label labels ih =>
    obtain ⟨hpos, hlt⟩ := fits_iff.mp (h label List.mem_cons_self)
    have hbyte : (UInt8.ofNat label.length).toNat = label.length :=
      UInt8.toNat_ofNat_of_lt' (Nat.lt_trans hlt (by decide))
    have hne : UInt8.ofNat label.length ≠ 0 := by
      intro h0
      rw [h0] at hbyte
      exact absurd hbyte.symm (Nat.ne_of_gt hpos)
    have hsmall : UInt8.ofNat label.length < 64 := by
      rw [UInt8.lt_iff_toNat_lt, hbyte]
      exact hlt
    have hbytes : putLabels (label :: labels) ++ 0 :: rest =
        UInt8.ofNat label.length :: (label ++ (putLabels labels ++ 0 :: rest)) := by
      show (putString label ++ putLabels labels) ++ 0 :: rest = _
      rw [List.append_assoc]
      rfl
    have hsplit : splitExactly (UInt8.ofNat label.length).toNat
        (label ++ (putLabels labels ++ 0 :: rest)) = some (label, putLabels labels ++ 0 :: rest) :=
      splitExactly_eq_some_iff.mpr ⟨hbyte.symm, rfl⟩
    rw [hbytes, readRun.eq_def]
    simp only [hne, hsmall, if_false, if_true]
    split
    · rename_i hnone
      rw [hsplit] at hnone
      cases hnone
    · rename_i hsome
      rw [hsplit] at hsome
      cases hsome
      rw [ih fun l hl => h l (List.mem_cons_of_mem _ hl)]
      rfl

theorem length_putName (name : DomainName) : (putName name).length = name.size := by
  rw [putName, List.length_append, length_putLabels]
  rfl

/-- A name that can stand in a message is read back from its labels and the root. -/
theorem reads_readName (message : List UInt8) {name : DomainName} (h : name.Valid)
    (habsolute : name.absolute = true) : Reader.Reads (readName message) (putName name) name := by
  obtain ⟨labels, absolute⟩ := name
  obtain rfl : absolute = true := habsolute
  intro offset rest
  have hrun : readRun (putName ⟨labels, true⟩ ++ rest) = some ⟨labels, .root, rest⟩ := by
    rw [putName, List.append_assoc]
    exact readRun_putLabels h.labels rest
  have hfollow : follow message offset .root = some [] := by rw [follow]
  show (readRun _ >>= _) = _
  rw [hrun]
  show (follow message offset .root >>= _) = _
  rw [hfollow, length_putName]
  show (if (DomainName.ofLabels (labels ++ [])).size ≤ _ then
    some (DomainName.ofLabels (labels ++ []), _) else none) = _
  rw [List.append_nil]
  exact if_pos h.size

end SplitHorizon.Wire
