import SplitHorizon.Address.Grouped
import SplitHorizon.Proofs.Address.Dotted
/-!
# Grouped addresses, written and read

An address of 128 bits is read back from its text (`scan_render`), whichever run of zero groups is
shortened and whether or not it ends as a dotted address. As for dotted addresses, what follows in a
longer text has no part in reading it (`scan_append`), and the characters that have been read off
are those of addresses, with two colons among them at least (`front_of_scan`).
-/

namespace SplitHorizon.Address

/-- The groups of an address make it up again. -/
theorem ofGroups_groups (bits : BitVec 128) : ofGroups (groups bits) = bits := by
  have hlt : bits.toNat < Nat.pow 65536 8 := bits.isLt
  rw [ofGroups, groups, Places.toNat_ofNat hlt, BitVec.ofNat_toNat, BitVec.setWidth_eq]

/-- An address holds one of 32 bits exactly if that one stands behind 16 bits that are set, and none
of the bits in front of those is set. -/
theorem mapped?_eq_some_iff {bits : BitVec 128} {inner : BitVec 32} :
    mapped? bits = some inner ↔ bits.toNat = 0xffff00000000 + inner.toNat := by
  unfold mapped?
  have hinner : inner.toNat < 0x100000000 := inner.isLt
  split
  · rw [Option.some.injEq, ← BitVec.toNat_inj, BitVec.toNat_ofNat]
    omega
  · exact ⟨nofun, fun h => by omega⟩

namespace Grouped

open Text (Stops leaving)

/-! ## Groups -/

/-- Whether a character is a hexadecimal digit. -/
def isHexDigit (c : Char) : Bool := (Places.hexDigit? c).isSome

/-- Whether a grouped address can go on with a character. -/
def goesOn (c : Char) : Bool := isHexDigit c || c == ':' || c == '.'

theorem isHexDigit_of_isDigit {c : Char} (h : Dotted.isDigit c = true) : isHexDigit c = true := by
  simp only [Dotted.isDigit, Decimal.digit?, Option.isSome_ite] at h
  simp [isHexDigit, Places.hexDigit?, h]

theorem goesOn_of_dotted {c : Char} (h : Dotted.goesOn c = true) : goesOn c = true := by
  simp only [Dotted.goesOn, goesOn, Bool.or_eq_true] at h ⊢
  rcases h with h | h
  · exact .inl (.inl (isHexDigit_of_isDigit h))
  · exact .inr h

theorem goesOn_of_isHexDigit {c : Char} (h : isHexDigit c = true) : goesOn c = true := by
  simp [goesOn, h]

/-- What follows a group has no part in reading it, unless it begins with a hexadecimal digit. -/
theorem scanGroup_append {cs t : List Char} (h : Stops isHexDigit t) :
    scanGroup (cs ++ t) = (scanGroup cs).map (leaving t) := by
  have hspan : (cs ++ t).span (fun c => (Places.hexDigit? c).isSome) =
      leaving t (cs.span fun c => (Places.hexDigit? c).isSome) := Text.span_append h
  simp only [scanGroup, hspan, leaving]
  split <;> rfl

/-- A group is read back from its digits. -/
theorem scanGroup_hexDigits {g : Nat} (hg : g < 65536) {t : List Char} (ht : Stops isHexDigit t) :
    scanGroup (Places.hexDigits g ++ t) = some (g, t) := by
  have hlength : 1 ≤ (Places.hexDigits g).length ∧ (Places.hexDigits g).length ≤ 4 := by
    rw [Places.length_hexDigits]
    exact ⟨Places.length_shortest_pos (by decide) g,
      Places.length_shortest_le (k := 3) (by decide) hg⟩
  have hspan : (Places.hexDigits g ++ t).span (fun c => (Places.hexDigit? c).isSome) =
      (Places.hexDigits g, t) := Text.span_append_self (fun c => Places.isSome_hexDigit?_of_mem) ht
  simp only [scanGroup, hspan, Places.value_hexDigits]
  simp [hlength]

/-- What is read as a group is made of characters of addresses. -/
theorem front_of_scanGroup {cs rest : List Char} {g : Nat} (h : scanGroup cs = some (g, rest)) :
    ∃ front, cs = front ++ rest ∧ ∀ c ∈ front, goesOn c = true := by
  unfold scanGroup at h
  cases hspan : cs.span fun c => (Places.hexDigit? c).isSome with
  | mk run left =>
    rw [hspan] at h
    dsimp only at h
    split at h
    · cases h
      obtain ⟨hcs, hrun⟩ := Text.append_of_span hspan
      exact ⟨run, hcs, fun c hc => goesOn_of_isHexDigit (hrun c hc)⟩
    · cases h

/-! ## Runs of groups -/

/-- What follows a text has no part in whether a separator stands at its front. -/
theorem separator_append {first : Bool} {cs t : List Char} (h : Stops goesOn t) :
    separator first (cs ++ t) = (separator first cs).map (· ++ t) := by
  cases first with
  | true => rfl
  | false =>
    cases cs with
    | nil =>
      cases t with
      | nil => rfl
      | cons c t =>
        have hc : c ≠ ':' := by
          rintro rfl
          exact Bool.noConfusion (Text.stops_cons.mp h)
        simp [separator, hc]
    | cons c cs => by_cases hc : c = ':' <;> simp [separator, hc]

/-- A text behind what is left of a run. -/
def Run.leaving (t : List Char) (run : Run) : Run := { run with rest := run.rest ++ t }

/-- What follows a run of groups has no part in reading it, unless it begins with a character of
addresses. -/
theorem scanRun_append {room : Nat} {first : Bool} {cs t : List Char} (h : Stops goesOn t) :
    scanRun room first (cs ++ t) = (scanRun room first cs).leaving t := by
  have hdotted : Stops Dotted.goesOn t := h.mono fun _ => goesOn_of_dotted
  have hhex : Stops isHexDigit t := h.mono fun _ => goesOn_of_isHexDigit
  induction room generalizing first cs with
  | zero => rfl
  | succ room ih =>
    rw [scanRun, scanRun, separator_append h]
    cases separator first cs with
    | none => rfl
    | some body =>
      have hscan : (if room = 0 then none else Dotted.scan (body ++ t)) =
          (if room = 0 then none else Dotted.scan body).map (Text.leaving t) := by
        split
        · rfl
        · exact Dotted.scan_append hdotted
      simp only [Option.map_some, hscan]
      cases (if room = 0 then none else Dotted.scan body) with
      | some read => rfl
      | none =>
        simp only [Option.map_none, scanGroup_append hhex]
        cases scanGroup body with
        | none => rfl
        | some read =>
          simp only [Option.map_some, Text.leaving, ih]
          rfl

/-! ## The mark of shortened groups -/

/-- What stands behind the mark of shortened groups. -/
def mark? : List Char → Option (List Char)
  | ':' :: ':' :: cs => some cs
  | _ => none

theorem mark?_append {cs t : List Char} (h : Stops goesOn t) :
    mark? (cs ++ t) = (mark? cs).map (· ++ t) := by
  have hcolon : ∀ c ∈ t.head?, c ≠ ':' := by
    rintro c hc rfl
    exact Bool.noConfusion (h ':' hc)
  rcases cs with _ | ⟨c, _ | ⟨d, cs⟩⟩
  · cases t with
    | nil => rfl
    | cons e t => simp [mark?, hcolon e rfl]
  · cases t with
    | nil => simp [mark?]
    | cons e t => simp [mark?, hcolon e rfl]
  · by_cases hc : c = ':' <;> by_cases hd : d = ':' <;> simp [mark?, hc, hd]

/-- The groups of an address in front of the mark, with those behind it and zeros in between. -/
def around (front : List Nat) (back : Run) : BitVec 128 × List Char :=
  let zeros := List.replicate (8 - front.length - back.groups.length) 0
  (ofGroups (front ++ zeros ++ back.groups), back.rest)

/-- An address is a run of eight groups, or one of fewer that is followed by the mark and by the
groups behind it. -/
theorem scan_eq (cs : List Char) :
    scan cs =
      let head := scanRun 8 true cs
      if head.groups.length = 8 then some (ofGroups head.groups, head.rest)
      else if head.dotted then none
      else (mark? head.rest).map fun rest =>
        around head.groups (scanRun (7 - head.groups.length) true rest) := by
  simp only [scan]
  split
  · rfl
  · split
    · rfl
    · generalize (scanRun 8 true cs).rest = rest
      split
      · rfl
      · rename_i hmark
        have hnone : mark? rest = none := by
          unfold mark?
          split
          · exact absurd rfl (hmark _)
          · rfl
        rw [hnone]
        rfl

/-- An address with the mark behind some groups, fewer than eight, goes on behind the mark. -/
theorem scan_of_mark {cs rest : List Char} {front : List Nat}
    (hhead : scanRun 8 true cs = ⟨front, false, ':' :: ':' :: rest⟩) (hlt : front.length < 8) :
    scan cs = some (around front (scanRun (7 - front.length) true rest)) := by
  rw [scan_eq, hhead]
  dsimp only
  rw [if_neg (Nat.ne_of_lt hlt), if_neg Bool.false_ne_true]
  rfl

/-- **What follows a grouped address has no part in reading it**, unless it begins with a character
of addresses. -/
theorem scan_append {cs t : List Char} (h : Stops goesOn t) :
    scan (cs ++ t) = (scan cs).map (leaving t) := by
  simp only [scan_eq, scanRun_append h, Run.leaving, mark?_append h]
  split
  · rfl
  · split
    · rfl
    · rw [Option.map_map, Option.map_map]
      refine congrArg (Option.map · _) (funext fun rest => ?_)
      simp only [Function.comp_apply, scanRun_append h]
      rfl

/-! ## Addresses -/

/-- No group begins where a text begins with two colons, or ends. -/
structure Halts (t : List Char) : Prop where
  run : ∀ room first, scanRun room first t = ⟨[], false, t⟩
  stops : Stops (fun c => isHexDigit c || c == '.') t

theorem halts_nil : Halts [] := by
  refine ⟨fun room first => ?_, Text.stops_nil⟩
  cases room with
  | zero => rfl
  | succ room => cases first <;> cases room <;> rfl

/-- No group begins at the mark of shortened groups. -/
theorem halts_mark (t : List Char) : Halts (':' :: ':' :: t) := by
  have hgroup : ∀ t, scanGroup (':' :: t) = none := fun t =>
    @scanGroup_append [] _ (Text.stops_cons.mpr rfl)
  have hscan : ∀ t, Dotted.scan (':' :: t) = none := fun t =>
    Dotted.scan_of_stops (Text.stops_cons.mpr rfl)
  refine ⟨fun room first => ?_, Text.stops_cons.mpr rfl⟩
  cases room with
  | zero => rfl
  | succ room => cases first <;> simp [scanRun, separator, hgroup, hscan]

/-- Digits that are not followed by a dot do not begin a dotted address. -/
theorem scan_hexDigits {g : Nat} {t : List Char}
    (ht : Stops (fun c => isHexDigit c || c == '.') t) :
    Dotted.scan (Places.hexDigits g ++ t) = none := by
  have hstops : Stops Dotted.goesOn t := ht.mono fun c hc => by
    simp only [Dotted.goesOn, Bool.or_eq_true] at hc ⊢
    exact hc.imp_left isHexDigit_of_isDigit
  rw [Dotted.scan_append hstops, Option.map_eq_none_iff]
  cases hscan : Dotted.scan (Places.hexDigits g) with
  | none => rfl
  | some read =>
    obtain ⟨front, hdigits, _, hdot⟩ := Dotted.front_of_scan hscan
    have hmem : '.' ∈ Places.hexDigits g := hdigits ▸ List.mem_append_left _ hdot
    exact Bool.noConfusion (Places.isSome_hexDigit?_of_mem hmem)

theorem stops_hex {t : List Char} (ht : Stops (fun c => isHexDigit c || c == '.') t) :
    Stops isHexDigit t :=
  ht.mono fun c hc => by rw [hc, Bool.true_or]

/-- Groups with a colon in front of each. -/
def colonned (gs : List Nat) : List Char := gs.flatMap fun g => ':' :: Places.hexDigits g

/-- Groups that are joined are the first one, and the others with a colon in front of each. -/
theorem join_cons (g : Nat) (gs : List Nat) :
    join (g :: gs) = Places.hexDigits g ++ colonned gs := by
  induction gs generalizing g with
  | nil => simp [join, colonned, List.intercalate]
  | cons h gs ih =>
    have hjoin : join (g :: h :: gs) = Places.hexDigits g ++ ':' :: join (h :: gs) := by
      simp [join, List.intercalate]
    rw [hjoin, ih]
    rfl

/-- Neither a digit nor a dot stands in front of groups that have a colon in front of each. -/
theorem stops_colonned {gs : List Nat} {rest : List Char} (h : Halts rest) :
    Stops (fun c => isHexDigit c || c == '.') (colonned gs ++ rest) := by
  cases gs with
  | nil => exact h.stops
  | cons g gs => exact Text.stops_cons.mpr rfl

/-- A group that stands at the front of a run is read. -/
theorem scanRun_of_group {room : Nat} {first : Bool} {cs t : List Char} {g : Nat}
    (hg : g < 65536) (hcs : separator first cs = some (Places.hexDigits g ++ t))
    (ht : Stops (fun c => isHexDigit c || c == '.') t) {run : Run}
    (hrun : scanRun room false t = run) :
    scanRun (room + 1) first cs = ⟨g :: run.groups, run.dotted, run.rest⟩ := by
  have hdotted : (if room = 0 then none else Dotted.scan (Places.hexDigits g ++ t)) = none := by
    rw [scan_hexDigits ht, ite_self]
  simp only [scanRun, hcs, hdotted, scanGroup_hexDigits hg (stops_hex ht), hrun]

/-- Groups that have a colon in front of each are read back, as long as there is room for them. -/
theorem scanRun_colonned {gs : List Nat} (hgs : ∀ g ∈ gs, g < 65536) {rest : List Char}
    (h : Halts rest) {room : Nat} (hroom : gs.length ≤ room) :
    scanRun room false (colonned gs ++ rest) = ⟨gs, false, rest⟩ := by
  induction gs generalizing room with
  | nil => exact h.run room false
  | cons g gs ih =>
    obtain ⟨hg, hgs⟩ := List.forall_mem_cons.mp hgs
    obtain ⟨room, rfl⟩ := Nat.exists_eq_add_of_le' (Nat.lt_of_lt_of_le (Nat.succ_pos _) hroom)
    exact scanRun_of_group hg (by simp [separator, colonned]) (stops_colonned h)
      (ih hgs (Nat.le_of_succ_le_succ hroom))

/-- **A run of groups is read back**, as long as there is room for it. -/
theorem scanRun_join {gs : List Nat} (hgs : ∀ g ∈ gs, g < 65536) {rest : List Char}
    (h : Halts rest) {room : Nat} (hroom : gs.length ≤ room) :
    scanRun room true (join gs ++ rest) = ⟨gs, false, rest⟩ := by
  cases gs with
  | nil => exact h.run room true
  | cons g gs =>
    obtain ⟨hg, hgs⟩ := List.forall_mem_cons.mp hgs
    obtain ⟨room, rfl⟩ := Nat.exists_eq_add_of_le' (Nat.lt_of_lt_of_le (Nat.succ_pos _) hroom)
    refine scanRun_of_group hg ?_ (stops_colonned h)
      (scanRun_colonned hgs h (Nat.le_of_succ_le_succ hroom))
    rw [join_cons, List.append_assoc]
    rfl

/-! ## The longest run of zeros -/

/-- A place in a list of groups, with a number of zeros from there on. -/
structure IsZeros (gs : List Nat) (run : Nat × Nat) : Prop where
  zeros : (gs.drop run.1).take run.2 = List.replicate run.2 0
  le : run.1 + run.2 ≤ gs.length

/-- The zeros that are counted at a place stand there. -/
theorem isZeros_zerosAhead {gs : List Nat} {i : Nat} (hi : i ≤ gs.length) :
    IsZeros gs (i, zerosAhead (gs.drop i)) := by
  have hle : (gs.drop i).takeWhile (· == 0) <+: gs.drop i := List.takeWhile_prefix _
  refine ⟨?_, ?_⟩
  · rw [zerosAhead, ← List.prefix_iff_eq_take.mp hle]
    exact List.eq_replicate_of_mem fun g hg =>
      beq_iff_eq.mp (List.mem_takeWhile_imp (p := (· == 0)) hg)
  · have hlength := hle.length_le
    rw [List.length_drop] at hlength
    simp only [zerosAhead]
    omega

/-- The longest run of zeros that is found stands where it was found. -/
theorem isZeros_longestZeros (gs : List Nat) : IsZeros gs (longestZeros gs) := by
  have hfold : ∀ (places : List Nat) (best : Nat × Nat), (∀ i ∈ places, i ≤ gs.length) →
      IsZeros gs best → IsZeros gs (places.foldl (fun best i =>
        let n := zerosAhead (gs.drop i)
        if best.2 < n then (i, n) else best) best) := by
    intro places
    induction places with
    | nil => exact fun _ _ hbest => hbest
    | cons i places ih =>
      intro best hplaces hbest
      obtain ⟨hi, hplaces⟩ := List.forall_mem_cons.mp hplaces
      refine ih _ hplaces ?_
      dsimp only
      split
      · exact isZeros_zerosAhead hi
      · exact hbest
  exact hfold _ _ (fun i hi => Nat.le_of_lt (List.mem_range.mp hi)) ⟨rfl, Nat.zero_le _⟩

/-- Groups are those in front of a run of zeros, the zeros, and those behind it. -/
theorem IsZeros.split {gs : List Nat} {run : Nat × Nat} (h : IsZeros gs run) :
    gs.take run.1 ++ List.replicate run.2 0 ++ gs.drop (run.1 + run.2) = gs := by
  rw [← h.zeros, List.append_assoc, ← List.drop_drop, List.take_append_drop,
    List.take_append_drop]

/-! ## Whole addresses -/

/-- Eight groups are read back from their text, whether some of them are shortened or not. -/
theorem scan_shorten {gs : List Nat} (hgs : ∀ g ∈ gs, g < 65536) (hlength : gs.length = 8) :
    scan (shorten gs) = some (ofGroups gs, []) := by
  have hzeros := isZeros_longestZeros gs
  have hsplit := hzeros.split
  have hle := hzeros.le
  unfold shorten
  generalize longestZeros gs = run at hsplit hle
  obtain ⟨start, count⟩ := run
  dsimp only at hsplit hle ⊢
  split
  · rename_i hcount
    have hfront : (gs.take start).length = start := by simp; omega
    have hback : (gs.drop (start + count)).length = 8 - start - count := by simp; omega
    have hhead : scanRun 8 true (join (gs.take start) ++
        (':' :: ':' :: join (gs.drop (start + count)))) = ⟨gs.take start, false, _⟩ :=
      scanRun_join (fun g hg => hgs g (List.mem_of_mem_take hg)) (halts_mark _) (by omega)
    have htail : scanRun (7 - start) true (join (gs.drop (start + count)) ++ []) =
        ⟨gs.drop (start + count), false, []⟩ :=
      scanRun_join (fun g hg => hgs g (List.mem_of_mem_drop hg)) halts_nil (by omega)
    rw [List.append_nil] at htail
    have hnumber : 8 - start - (8 - start - count) = count := by omega
    rw [List.append_assoc, List.cons_append, List.cons_append, List.nil_append]
    rw [scan_of_mark hhead (by omega), hfront, htail]
    simp only [around, hfront, hback, hnumber, hsplit]
  · have hrun : scanRun 8 true (join gs ++ []) = ⟨gs, false, []⟩ :=
      scanRun_join hgs halts_nil (by omega)
    rw [List.append_nil] at hrun
    simp only [scan_eq, hrun, hlength, if_true]

/-- An address that holds one of 32 bits is read back from the dotted text of that one. -/
theorem scan_mapped {bits : BitVec 128} {inner : BitVec 32} (h : mapped? bits = some inner) :
    scan ("::ffff:".toList ++ Dotted.render inner) = some (bits, []) := by
  have hdigits : Places.hexDigits 0xffff = ['f', 'f', 'f', 'f'] := by
    simp [Places.hexDigits, Places.hexDigitChar]
  have htext : "::ffff:".toList ++ Dotted.render inner =
      ':' :: ':' :: (Places.hexDigits 0xffff ++ ':' :: Dotted.render inner) := by
    rw [hdigits]
    rfl
  have hdotted : scanRun 6 false (':' :: Dotted.render inner) =
      ⟨Places.ofNat 65536 2 inner.toNat, true, []⟩ := by
    simp [scanRun, separator, Dotted.scan_render]
  have htail : scanRun 7 true (Places.hexDigits 0xffff ++ ':' :: Dotted.render inner) =
      ⟨0xffff :: Places.ofNat 65536 2 inner.toNat, true, []⟩ :=
    scanRun_of_group (by decide) rfl (Text.stops_cons.mpr rfl) hdotted
  have hbits : Places.toNat 65536
      (List.replicate 5 0 ++ 0xffff :: Places.ofNat 65536 2 inner.toNat) = bits.toNat := by
    have hlt : inner.toNat < 0x100000000 := inner.isLt
    have hmapped := mapped?_eq_some_iff.mp h
    simp [Places.toNat, Places.ofNat]
    omega
  rw [htext, scan_of_mark ((halts_mark _).run 8 true) (by decide), List.length_nil, htail, around]
  simp only [List.length_nil, List.length_cons, Places.length_ofNat, List.nil_append, ofGroups,
    hbits, BitVec.ofNat_toNat, BitVec.setWidth_eq]

/-- **An address is read back from its text.** -/
theorem scan_render (bits : BitVec 128) : scan (render bits) = some (bits, []) := by
  unfold render
  split
  · rename_i inner hinner
    exact scan_mapped hinner
  · have hgroups : ∀ g ∈ groups bits, g < 65536 :=
      fun g hg => Places.lt_of_mem_ofNat (by decide) hg
    rw [scan_shorten hgroups (Places.length_ofNat ..), ofGroups_groups]

/-- An address is read off the front of a text that does not go on with a character of addresses. -/
theorem scan_render_append (bits : BitVec 128) {t : List Char} (h : Stops goesOn t) :
    scan (render bits ++ t) = some (bits, t) := by
  rw [scan_append h, scan_render]
  rfl

/-- A text is read as an address exactly if one is read off its front and nothing is left. -/
theorem read_eq_some_iff {cs : List Char} {bits : BitVec 128} :
    read cs = some bits ↔ scan cs = some (bits, []) := by
  unfold read
  split
  · rename_i bits' hscan
    rw [hscan]
    simp
  · rename_i hscan
    exact ⟨nofun, fun h => absurd h (hscan bits)⟩

theorem read_render (bits : BitVec 128) : read (render bits) = some bits :=
  read_eq_some_iff.mpr (scan_render bits)

/-! ## What has been read -/

/-- A separator is a colon, but in front of the first group, where it is nothing. -/
theorem front_of_separator {first : Bool} {cs body : List Char}
    (h : separator first cs = some body) :
    ∃ front, cs = front ++ body ∧ (∀ c ∈ front, goesOn c = true) ∧
      1 ≤ front.count ':' + first.toNat := by
  unfold separator at h
  split at h
  · cases h
    exact ⟨[], rfl, nofun, Nat.le_refl 1⟩
  · cases h
    exact ⟨[':'], rfl, List.forall_mem_singleton.mpr rfl, Nat.le_refl 1⟩
  · cases h

/-- Every group of a run has a colon in front of it, but for the first one; a dotted end counts for
two groups. -/
theorem front_of_scanRun (room : Nat) (first : Bool) (cs : List Char) :
    ∃ front, cs = front ++ (scanRun room first cs).rest ∧ (∀ c ∈ front, goesOn c = true) ∧
      (scanRun room first cs).groups.length ≤
        front.count ':' + first.toNat + (scanRun room first cs).dotted.toNat := by
  induction room generalizing first cs with
  | zero => exact ⟨[], rfl, nofun, Nat.zero_le _⟩
  | succ room ih =>
    rw [scanRun]
    cases hcs : separator first cs with
    | none => exact ⟨[], rfl, nofun, Nat.zero_le _⟩
    | some body =>
      obtain ⟨mark, rfl, hmark, hcolon⟩ := front_of_separator hcs
      dsimp only
      cases hdotted : if room = 0 then none else Dotted.scan body with
      | some read =>
        obtain ⟨_, hscan⟩ := Option.ite_none_left_eq_some.mp hdotted
        obtain ⟨front, rfl, hfront, _⟩ := Dotted.front_of_scan hscan
        refine ⟨mark ++ front, (List.append_assoc ..).symm, List.forall_mem_append.mpr
          ⟨hmark, fun c hc => goesOn_of_dotted (hfront c hc)⟩, ?_⟩
        simp only [Places.length_ofNat, List.count_append, Bool.toNat_true]
        omega
      | none =>
        cases hgroup : scanGroup body with
        | none => exact ⟨[], rfl, nofun, Nat.zero_le _⟩
        | some read =>
          obtain ⟨front, rfl, hfront⟩ := front_of_scanGroup hgroup
          obtain ⟨front', hrest, hfront', hlength⟩ := ih false read.2
          refine ⟨mark ++ front ++ front', ?_, ?_, ?_⟩
          · simp only [List.append_assoc, ← hrest]
          · simp only [List.forall_mem_append]
            exact ⟨⟨hmark, hfront⟩, hfront'⟩
          · simp only [List.length_cons, List.count_append, Bool.toNat_false] at hlength ⊢
            omega

/-- **What is read as a grouped address has two colons** and nothing but characters of addresses. -/
theorem front_of_scan {cs rest : List Char} {bits : BitVec 128} (h : scan cs = some (bits, rest)) :
    ∃ front, cs = front ++ rest ∧ (∀ c ∈ front, goesOn c = true) ∧ 2 ≤ front.count ':' := by
  obtain ⟨front, hcs, hfront, hlength⟩ := front_of_scanRun 8 true cs
  rw [scan_eq] at h
  dsimp only at h
  split at h
  · rename_i hfull
    cases h
    have hdotted := Bool.toNat_le (scanRun 8 true cs).dotted
    refine ⟨front, hcs, hfront, ?_⟩
    rw [hfull, Bool.toNat_true] at hlength
    omega
  · split at h
    · cases h
    · obtain ⟨back, hback, h⟩ := Option.map_eq_some_iff.mp h
      cases h
      obtain ⟨front', hrest, hfront', _⟩ :=
        front_of_scanRun (7 - (scanRun 8 true cs).groups.length) true back
      have hmark : (scanRun 8 true cs).rest = ':' :: ':' :: back := by
        unfold mark? at hback
        split at hback
        · rename_i heq
          cases hback
          exact heq
        · cases hback
      refine ⟨front ++ ':' :: ':' :: front', ?_, ?_, ?_⟩
      · rw [List.append_assoc, List.cons_append, List.cons_append, ← hrest, ← hmark, ← hcs]
      · simp only [List.forall_mem_append, List.forall_mem_cons]
        exact ⟨hfront, rfl, rfl, hfront'⟩
      · simp only [List.count_append, List.count_cons_self]
        omega

/-- A text that is read as an address has two colons, and nothing but characters of addresses. -/
theorem goesOn_of_read {cs : List Char} {bits : BitVec 128} (h : read cs = some bits) :
    (∀ c ∈ cs, goesOn c = true) ∧ 2 ≤ cs.count ':' := by
  obtain ⟨front, hcs, hfront, hcolon⟩ := front_of_scan (read_eq_some_iff.mp h)
  rw [List.append_nil] at hcs
  exact hcs ▸ ⟨hfront, hcolon⟩

/-- A text that begins as a dotted address does not begin as a grouped one. -/
theorem scan_of_dotted {cs : List Char} {read : BitVec 32 × List Char}
    (h : Dotted.scan cs = some read) : scan cs = none := by
  have hhead : scanRun 8 true cs = ⟨Places.ofNat 65536 2 read.1.toNat, true, read.2⟩ := by
    simp [scanRun, separator, h]
  rw [scan_eq, hhead]
  simp [Places.length_ofNat]

end Grouped

end SplitHorizon.Address
