import SplitHorizon.Proofs.Record.Strings
import SplitHorizon.Proofs.Text.Boundaries
/-!
# The fewest strings of a text

A text record holds its text in strings of at most 255 bytes, each as long as it can be. There is no
way to cut the text between characters into fewer strings of that size (`length_strings_le`).

Where a string ends can be told from the bytes alone: one goes on by 255 bytes and from there back
to the last place between two characters. A character has four bytes at most, so that is three bytes
back at most and never all the way (`backUp_utf8`, `le_width_cut_add`). The strings that are cut so
are the same (`slices_utf8`).
-/

namespace SplitHorizon.RecordValue

/-! ## The longest front -/

/-- **What is cut off is as long as it can be**: no longer front of the text fits into the room. -/
theorem cut_append_of_width_le {room : Nat} {front : List Char} (h : Text.width front ≤ room)
    (rest : List Char) :
    cut room (front ++ rest) =
      (front ++ (cut (room - Text.width front) rest).1, (cut (room - Text.width front) rest).2) := by
  induction front generalizing room with
  | nil => rfl
  | cons c front ih =>
    rw [Text.width_cons] at h
    have hfits : c.utf8Size ≤ room := by omega
    have hfront := @ih (room - c.utf8Size) (by omega)
    rw [List.cons_append, cut, if_pos hfits, hfront, Text.width_cons, Nat.sub_sub]
    rfl

/-- A text that there is room for is not cut. -/
theorem cut_eq_self {room : Nat} {cs : List Char} (h : Text.width cs ≤ room) :
    cut room cs = (cs, []) := by
  have hcut := cut_append_of_width_le h []
  rw [List.append_nil] at hcut
  rw [hcut, cut, List.append_nil]

/-- The first character that is not cut off has no room. -/
theorem lt_of_cut_eq_cons {room : Nat} {cs : List Char} {c : Char} {rest : List Char}
    (h : (cut room cs).2 = c :: rest) : room < Text.width (cut room cs).1 + c.utf8Size := by
  induction cs generalizing room with
  | nil => cases h
  | cons d cs ih =>
    rw [cut] at h ⊢
    split at h
    · rename_i hfits
      have hrest := ih h
      rw [if_pos hfits, Text.width_cons]
      omega
    · rename_i hfits
      cases h
      rw [if_neg hfits]
      exact Nat.lt_of_not_le fun hle => hfits (Nat.le_trans (Nat.le_add_left ..) hle)

/-- Less than four bytes of the room are left empty, unless nothing is left over. -/
theorem le_width_cut_add (room : Nat) (cs : List Char) :
    min (Text.width cs) room ≤ Text.width (cut room cs).1 + 3 := by
  have happend := congrArg Text.width (cut_append room cs)
  rw [Text.width_append] at happend
  cases hrest : (cut room cs).2 with
  | nil =>
    have hnil : Text.width [] = 0 := rfl
    rw [hrest] at happend
    omega
  | cons c rest =>
    have hlt := lt_of_cut_eq_cons hrest
    have hchar : c.utf8Size ≤ 4 := c.utf8Size_le_four
    omega

/-! ## The fewest strings -/

/-- Any one character has room in a string. -/
theorem utf8Size_le_maxString (c : Char) : c.utf8Size ≤ maxString :=
  Nat.le_trans c.utf8Size_le_four (by decide)

/-- The first string is as much of the text as there is room for, and the others are those of the
rest. -/
theorem strings_cons (c : Char) (cs : List Char) :
    strings (c :: cs) =
      (cut maxString (c :: cs)).1 :: strings (cut maxString (c :: cs)).2 := by
  rw [strings, cut, if_pos (utf8Size_le_maxString c)]

/-- Something is cut off every text that is not empty. -/
theorem width_cut_pos {cs : List Char} (h : cs ≠ []) : 0 < Text.width (cut maxString cs).1 := by
  obtain ⟨c, cs, rfl⟩ := List.exists_cons_of_ne_nil h
  rw [cut, if_pos (utf8Size_le_maxString c), Text.width_cons]
  exact Nat.add_pos_left c.utf8Size_pos _

theorem ne_nil_of_mem_strings {cs w : List Char} (h : w ∈ strings cs) : w ≠ [] := by
  induction cs using strings.induct with
  | case1 =>
    rw [strings] at h
    cases h
  | case2 c cs p ih =>
    rw [strings] at h
    rcases List.mem_cons.mp h with rfl | h
    · exact List.cons_ne_nil _ _
    · exact ih h

/-- **No cuts make fewer strings**, not even with more of the text in front of it: the first string
ends where the first of the others does, or behind that. -/
theorem length_strings_le {pieces : List (List Char)} {front cs : List Char}
    (hpieces : pieces.flatten = front ++ cs) (hfits : ∀ w ∈ pieces, Text.width w ≤ maxString) :
    (strings cs).length ≤ pieces.length := by
  induction pieces generalizing front cs with
  | nil =>
    obtain ⟨-, rfl⟩ := List.append_eq_nil_iff.mp hpieces.symm
    simp [strings]
  | cons w pieces ih =>
    rw [List.forall_mem_cons] at hfits
    rw [List.flatten_cons] at hpieces
    rcases List.append_eq_append_iff.mp hpieces with ⟨front', -, hrest⟩ | ⟨w', rfl, rfl⟩
    · -- the first piece lies in front of the text
      exact Nat.le_succ_of_le (ih hrest hfits.2)
    · cases hcs : w' ++ pieces.flatten with
      | nil =>
        rw [strings]
        exact Nat.zero_le _
      | cons c cs =>
        have hw : Text.width w' ≤ maxString := by
          have hwhole := hfits.1
          rw [Text.width_append] at hwhole
          omega
        have hcut := cut_append_of_width_le hw pieces.flatten
        have hrest := cut_append (maxString - Text.width w') pieces.flatten
        rw [strings_cons, ← hcs, hcut]
        exact Nat.succ_le_succ (ih hrest.symm hfits.2)

/-! ## Looking for the ends of strings -/

/-- **Going back from where the room ends leads to the end of what is cut off.** -/
theorem backUp_utf8 (room : Nat) (cs : List Char) :
    Text.backUp (Text.utf8 cs) (min (Text.utf8 cs).length room) = Text.width (cut room cs).1 := by
  rw [Text.length_utf8]
  have happend := cut_append room cs
  have hwidth := congrArg Text.width happend
  rw [Text.width_append] at hwidth
  have hroom := width_cut_le room cs
  apply Text.backUp_eq
  · exact Text.isBoundary_utf8_iff.mpr ⟨_, _, happend.symm, rfl⟩
  · omega
  · intro j hj hboundary
    obtain ⟨front, rest, rfl, rfl⟩ := Text.isBoundary_utf8_iff.mp hboundary
    have hfits : Text.width front ≤ room := by omega
    rw [cut_append_of_width_le hfits, Text.width_append]
    exact Nat.le_add_right _ _

/-- Cuts bytes into slices of at most `room` bytes, each as long as it can be without an end inside
a character. There is one round for each slice, and nothing if the rounds do not suffice. -/
def slices (room : Nat) : (rounds : Nat) → List UInt8 → Option (List (List UInt8))
  | _, [] => some []
  | 0, _ :: _ => none
  | rounds + 1, bytes =>
    let stop := Text.backUp bytes (min bytes.length room)
    (slices room rounds (bytes.drop stop)).map (bytes.take stop :: ·)

/-- One round takes off a slice that ends where a character does. -/
theorem slices_of_ne_nil {room rounds : Nat} {bytes : List UInt8} (h : bytes ≠ []) :
    slices room (rounds + 1) bytes =
      (slices room rounds (bytes.drop (Text.backUp bytes (min bytes.length room)))).map
        (bytes.take (Text.backUp bytes (min bytes.length room)) :: ·) := by
  cases bytes with
  | nil => exact absurd rfl h
  | cons b bytes => rfl

/-- **The slices of the bytes of a text are its strings**, and the rounds suffice if there is one
for each of them. -/
theorem slices_utf8 {cs : List Char} {rounds : Nat} (h : (strings cs).length ≤ rounds) :
    slices maxString rounds (Text.utf8 cs) = some ((strings cs).map Text.utf8) := by
  induction rounds generalizing cs with
  | zero =>
    cases cs with
    | nil =>
      rw [strings]
      rfl
    | cons c cs =>
      rw [strings_cons] at h
      cases h
  | succ rounds ih =>
    cases cs with
    | nil =>
      rw [strings]
      rfl
    | cons c cs =>
      have hne : Text.utf8 (c :: cs) ≠ [] := by
        rw [Text.utf8_cons]
        exact List.append_ne_nil_of_left_ne_nil String.utf8EncodeChar_ne_nil _
      have hbytes := congrArg Text.utf8 (cut_append maxString (c :: cs))
      have hlength := Text.length_utf8 (cut maxString (c :: cs)).1
      rw [strings_cons] at h ⊢
      rw [slices_of_ne_nil hne, backUp_utf8, ← hbytes, Text.utf8_append,
        List.take_left' hlength, List.drop_left' hlength, ih (Nat.le_of_succ_le_succ h)]
      rfl

/-- The bytes of a text as slices; those of a short text are one slice. -/
def sliceText (rounds : Nat) (bytes : List UInt8) : Option (List (List UInt8)) :=
  if bytes.length ≤ maxString then some [bytes] else slices maxString rounds bytes

/-- A text that fits, and is not empty, is one string. -/
theorem strings_eq_singleton {cs : List Char} (hne : cs ≠ []) (h : Text.width cs ≤ maxString) :
    strings cs = [cs] := by
  obtain ⟨c, cs, rfl⟩ := List.exists_cons_of_ne_nil hne
  rw [strings_cons, cut_eq_self h, strings]

theorem chunks_of_ne {text : String} (h : text ≠ "") :
    chunks text = (strings text.toList).map String.ofList := by
  rw [chunks, if_neg (by simpa using h)]

/-- Rounds of slices come to the strings of a text, if there are as many rounds. -/
theorem sliceText_utf8 {text : String} {rounds : Nat} (h : (chunks text).length ≤ rounds) :
    sliceText rounds (Text.utf8 text.toList) =
      some ((chunks text).map fun s => Text.utf8 s.toList) := by
  by_cases hempty : text = ""
  · subst hempty
    rfl
  · have hne : text.toList ≠ [] := by simpa using hempty
    rw [chunks_of_ne hempty] at h ⊢
    rw [List.length_map] at h
    have hstrings : ((strings text.toList).map String.ofList).map (fun s => Text.utf8 s.toList) =
        (strings text.toList).map Text.utf8 := by
      simp
    rw [sliceText, hstrings]
    split
    · rename_i hshort
      rw [Text.length_utf8] at hshort
      rw [strings_eq_singleton hne hshort, List.map_singleton]
    · exact slices_utf8 h

/-! ## All strings of a text -/

/-- The strings of a text make it up again. -/
theorem join_chunks (text : String) : String.join (chunks text) = text := by
  by_cases hempty : text = ""
  · subst hempty
    rfl
  · have hflat : ((strings text.toList).map String.ofList).flatMap String.toList =
        (strings text.toList).flatten := by
      simp [List.flatMap_map]
    rw [← String.toList_inj, String.toList_join, chunks_of_ne hempty, hflat, flatten_strings]

/-- No string of a text is empty, unless the text is. -/
theorem ne_empty_of_mem_chunks {text s : String} (hempty : text ≠ "") (h : s ∈ chunks text) :
    s ≠ "" := by
  rw [chunks_of_ne hempty] at h
  obtain ⟨w, hw, rfl⟩ := List.mem_map.mp h
  exact fun hnil => ne_nil_of_mem_strings hw (String.ofList_eq_empty_iff.mp hnil)

/-- No other strings make up a text in a smaller number. -/
theorem length_chunks_le {text : String} {pieces : List String} (hne : pieces ≠ [])
    (hjoin : String.join pieces = text)
    (hfits : ∀ s ∈ pieces, (Text.utf8 s.toList).length ≤ maxString) :
    (chunks text).length ≤ pieces.length := by
  by_cases hempty : text = ""
  · subst hempty
    exact List.length_pos_iff.mpr hne
  · have hflat : (pieces.map String.toList).flatten = [] ++ text.toList := by
      rw [← hjoin, String.toList_join, List.flatMap_def, List.nil_append]
    have hshort : ∀ w ∈ pieces.map String.toList, Text.width w ≤ maxString := by
      simpa [Text.length_utf8] using hfits
    have hle := length_strings_le hflat hshort
    rw [chunks_of_ne hempty, List.length_map]
    rwa [List.length_map] at hle

/-- **The strings of a text are the text, and as few of them as there can be.** One after the other
they are the text, and each has at most 255 bytes. None is empty, but for the one string of the
empty text. No other strings of this size make up the text in a smaller number; what is cut is at
least one string, and so the empty text is not made up of none.

The same strings are found in the bytes of the text, in one round for each of them. Where a round
looks for the end of a string it goes back three bytes at most, and never all the way. -/
theorem chunks_fewest (text : String) :
    String.join (chunks text) = text ∧
    (∀ s ∈ chunks text, (Text.utf8 s.toList).length ≤ maxString) ∧
    (text ≠ "" → "" ∉ chunks text) ∧ (text = "" → chunks text = [""]) ∧
    (∀ pieces : List String, pieces ≠ [] → String.join pieces = text →
      (∀ s ∈ pieces, (Text.utf8 s.toList).length ≤ maxString) →
      (chunks text).length ≤ pieces.length) ∧
    (∀ rounds, (chunks text).length ≤ rounds →
      sliceText rounds (Text.utf8 text.toList) =
        some ((chunks text).map fun s => Text.utf8 s.toList)) ∧
    ∀ rest : List Char, rest ≠ [] →
      let start := min (Text.utf8 rest).length maxString
      start ≤ Text.backUp (Text.utf8 rest) start + 3 ∧ 0 < Text.backUp (Text.utf8 rest) start := by
  refine ⟨join_chunks text, fun s => length_le_of_mem_chunks, fun hempty => ?_, ?_,
    fun pieces => length_chunks_le, fun rounds => sliceText_utf8, fun rest hne => ?_⟩
  · exact fun hmem => ne_empty_of_mem_chunks hempty hmem rfl
  · rintro rfl
    rfl
  · dsimp only
    rw [backUp_utf8, Text.length_utf8]
    exact ⟨le_width_cut_add maxString rest, width_cut_pos hne⟩

/-- The letter `é` has two bytes, so 127 of them make one string and leave a byte of it empty. -/
theorem chunks_fewest_accented :
    chunks (String.ofList (List.replicate 128 'é')) =
        [String.ofList (List.replicate 127 'é'), "é"] ∧
      sliceText 2 (Text.utf8 (List.replicate 128 'é')) =
        some [Text.utf8 (List.replicate 127 'é'), Text.utf8 ['é']] ∧
      Text.backUp (Text.utf8 (List.replicate 128 'é')) 255 = 254 ∧
      ∀ pieces : List String, String.join pieces = String.ofList (List.replicate 128 'é') →
        (∀ s ∈ pieces, (Text.utf8 s.toList).length ≤ 255) → 2 ≤ pieces.length := by
  have hne : String.ofList (List.replicate 128 'é') ≠ "" := by
    simp
  have hstrings : strings (List.replicate 128 'é') = [List.replicate 127 'é', ['é']] := by
    decide +kernel
  have hchunks : chunks (String.ofList (List.replicate 128 'é')) =
      [String.ofList (List.replicate 127 'é'), "é"] := by
    rw [chunks_of_ne hne, String.toList_ofList, hstrings]
    rfl
  obtain ⟨-, -, -, -, hfewest, hslices, -⟩ := chunks_fewest (String.ofList (List.replicate 128 'é'))
  rw [hchunks] at hfewest hslices
  rw [List.map_cons, List.map_singleton, String.toList_ofList, String.toList_ofList] at hslices
  refine ⟨hchunks, hslices 2 (by decide), by decide +kernel, fun pieces hjoin hfits => ?_⟩
  refine hfewest pieces ?_ hjoin hfits
  rintro rfl
  exact hne hjoin.symm

end SplitHorizon.RecordValue
