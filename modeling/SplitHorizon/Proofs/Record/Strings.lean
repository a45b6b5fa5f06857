import SplitHorizon.Proofs.Text.Bytes
import SplitHorizon.Server.Answer
/-!
# The strings of a text

A text record holds its text in strings of at most 255 bytes. The cuts between them lose nothing and
change nothing: the strings, one after the other, are the text (`flatten_chunks`), and each of them
fits (`length_le_of_mem_chunks`).
-/

namespace SplitHorizon

namespace RecordValue

/-! ## One cut -/

/-- A cut loses nothing. -/
theorem cut_append (room : Nat) (cs : List Char) : (cut room cs).1 ++ (cut room cs).2 = cs := by
  induction cs generalizing room with
  | nil => rfl
  | cons c cs ih =>
    unfold cut
    split
    · exact congrArg (c :: ·) (ih _)
    · rfl

/-- What is cut off fits into the room. -/
theorem width_cut_le (room : Nat) (cs : List Char) : Text.width (cut room cs).1 ≤ room := by
  induction cs generalizing room with
  | nil => exact Nat.zero_le _
  | cons c cs ih =>
    unfold cut
    split
    · rename_i hfits
      have hrest := ih (room - c.utf8Size)
      rw [Text.width_cons]
      omega
    · exact Nat.zero_le _

/-! ## All of them -/

/-- The strings of a text make it up again. -/
theorem flatten_strings (cs : List Char) : (strings cs).flatten = cs := by
  induction cs using strings.induct with
  | case1 =>
    rw [strings]
    rfl
  | case2 c cs p ih =>
    rw [strings, List.flatten_cons, ih, List.cons_append, cut_append]

/-- No string is wider than a string may be. -/
theorem width_le_of_mem_strings {cs w : List Char} (h : w ∈ strings cs) :
    Text.width w ≤ maxString := by
  induction cs using strings.induct with
  | case1 =>
    rw [strings] at h
    cases h
  | case2 c cs p ih =>
    rw [strings] at h
    rcases List.mem_cons.mp h with rfl | h
    · -- the first character is taken in any case, and it leaves room
      have hchar : c.utf8Size ≤ 4 := c.utf8Size_le_four
      have hrest := width_cut_le (maxString - c.utf8Size) cs
      rw [Text.width_cons]
      rw [maxString] at hrest ⊢
      omega
    · exact ih h

/-- **The strings of a text are the text**, byte by byte. -/
theorem flatten_chunks (text : String) :
    ((chunks text).map fun s => Text.utf8 s.toList).flatten = Text.utf8 text.toList := by
  unfold chunks
  split
  · rename_i hempty
    rw [String.isEmpty_iff.mp hempty]
    rfl
  · have hbytes : ((strings text.toList).map String.ofList).map (fun s => Text.utf8 s.toList) =
        (strings text.toList).map Text.utf8 := by
      rw [List.map_map]
      refine List.map_congr_left fun w _ => ?_
      rw [Function.comp_apply, String.toList_ofList]
    rw [hbytes, ← Text.utf8_flatten, flatten_strings]

/-- **A string of a text has at most 255 bytes.** -/
theorem length_le_of_mem_chunks {text s : String} (h : s ∈ chunks text) :
    (Text.utf8 s.toList).length ≤ maxString := by
  rw [Text.length_utf8]
  unfold chunks at h
  split at h
  · obtain rfl := List.mem_singleton.mp h
    exact Nat.zero_le _
  · obtain ⟨w, hw, rfl⟩ := List.mem_map.mp h
    rw [String.toList_ofList]
    exact width_le_of_mem_strings hw

end RecordValue

end SplitHorizon
