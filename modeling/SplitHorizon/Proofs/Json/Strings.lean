import Mathlib.Data.List.Forall2
import SplitHorizon.Json.Reader
import SplitHorizon.Json.Writer
import SplitHorizon.Proofs.Number.Digits
/-!
# Strings as they are written

Between its quotes a string may be written in many ways: a character as itself, if it is no quote,
no backslash and no control character; by an escape of one letter, if there is one for it; or by its
number in four hexadecimal digits, in two such numbers if it does not fit into one. `SpellsString`
is all of these, one way for each character. Whichever is taken, the string itself is read, and what
is written behind it is left over (`readString_append`); the library's own writer takes one of them
(`spellsString_render`).
-/

namespace SplitHorizon.Json

/-! ## Characters -/

/-- The escapes of one letter, each with the character that it stands for. -/
def letterEscapes : List (Char × Char) :=
  [('"', '"'), ('\\', '\\'), ('/', '/'), ('b', '\x08'), ('f', '\x0c'), ('n', '\n'), ('r', '\r'),
    ('t', '\t')]

/-- The ways to write a character inside a string. -/
inductive SpellsChar (c : Char) : List Char → Prop
  /-- As itself. -/
  | plain (quote : c ≠ '"') (backslash : c ≠ '\\') (control : 0x20 ≤ c.toNat) : SpellsChar c [c]
  | letter {e : Char} (escape : (e, c) ∈ letterEscapes) : SpellsChar c ['\\', e]
  /-- By its number. -/
  | unit {d₁ d₂ d₃ d₄ : Char} (number : unit? d₁ d₂ d₃ d₄ = some c.toNat) :
      SpellsChar c ['\\', 'u', d₁, d₂, d₃, d₄]
  /-- By the two halves of its number. -/
  | pair {d₁ d₂ d₃ d₄ e₁ e₂ e₃ e₄ : Char} {high low : Nat} (first : unit? d₁ d₂ d₃ d₄ = some high)
      (second : unit? e₁ e₂ e₃ e₄ = some low) (isHigh : 0xD800 ≤ high ∧ high ≤ 0xDBFF)
      (isLow : 0xDC00 ≤ low ∧ low ≤ 0xDFFF)
      (number : c.toNat = 0x10000 + (high - 0xD800) * 0x400 + (low - 0xDC00)) :
      SpellsChar c ['\\', 'u', d₁, d₂, d₃, d₄, '\\', 'u', e₁, e₂, e₃, e₄]

/-- No character has the number of half a pair. -/
theorem not_surrogate (c : Char) : isHighSurrogate c.toNat = false ∧
    isLowSurrogate c.toNat = false := by
  have hvalid : c.toNat < 0xD800 ∨ 0xDFFF < c.toNat ∧ c.toNat < 0x110000 := c.valid
  simp only [isHighSurrogate, isLowSurrogate, Bool.and_eq_false_iff, decide_eq_false_iff_not]
  omega

/-- **A character is read in whichever way it is written**, and what follows is left over. -/
theorem scanChar_append {c : Char} {cs : List Char} (h : SpellsChar c cs) (rest : List Char) :
    scanChar (cs ++ rest) = some (c, rest) := by
  cases h with
  | plain hquote hbackslash hcontrol =>
    rw [List.singleton_append]
    unfold scanChar
    split <;> simp_all
  | letter hescape =>
    simp only [letterEscapes, List.mem_cons, Prod.mk.injEq, List.not_mem_nil, or_false] at hescape
    rcases hescape with ⟨rfl, rfl⟩ | ⟨rfl, rfl⟩ | ⟨rfl, rfl⟩ | ⟨rfl, rfl⟩ | ⟨rfl, rfl⟩ |
      ⟨rfl, rfl⟩ | ⟨rfl, rfl⟩ | ⟨rfl, rfl⟩ <;> rfl
  | unit hnumber =>
    obtain ⟨hhigh, hlow⟩ := not_surrogate c
    simp [scanChar, hnumber, scanUnit, hhigh, hlow]
  | @pair _ _ _ _ _ _ _ _ high low hfirst hsecond hhigh hlow hnumber =>
    have hisHigh : isHighSurrogate high = true := by simp [isHighSurrogate, hhigh]
    have hnotLow : isLowSurrogate high = false := by
      simp only [isLowSurrogate, Bool.and_eq_false_iff, decide_eq_false_iff_not]
      omega
    have hisLow : isLowSurrogate low = true := by simp [isLowSurrogate, hlow]
    have hpair : Json.pair high low = c := by rw [Json.pair, ← hnumber, Char.ofNat_toNat]
    simp [scanChar, hfirst, hsecond, scanUnit, hisHigh, hnotLow, hisLow, hpair]

/-- No way to write a character begins with the quote that ends a string. -/
theorem SpellsChar.exists_cons {c : Char} {cs : List Char} (h : SpellsChar c cs) :
    ∃ d ds, cs = d :: ds ∧ d ≠ '"' := by
  cases h with
  | plain hquote _ _ => exact ⟨c, [], rfl, hquote⟩
  | letter _ => exact ⟨'\\', _, rfl, by decide⟩
  | unit _ => exact ⟨'\\', _, rfl, by decide⟩
  | pair _ _ _ _ _ => exact ⟨'\\', _, rfl, by decide⟩

/-- The code of a control character is read back from its four digits. -/
theorem unit?_control {n : Nat} (h : n < 0x20) :
    unit? '0' '0' (Places.hexDigitChar (n / 16)) (Places.hexDigitChar (n % 16)) = some n := by
  have hhigh : Places.hexDigit? (Places.hexDigitChar (n / 16)) = some (n / 16) :=
    Places.hexDigit?_hexDigitChar (by omega)
  have hlow : Places.hexDigit? (Places.hexDigitChar (n % 16)) = some (n % 16) :=
    Places.hexDigit?_hexDigitChar (by omega)
  have hzero : Places.hexDigit? '0' = some 0 := rfl
  simp only [unit?, hzero, hhigh, hlow, Option.bind_eq_bind, Option.bind_some, Option.some.injEq]
  omega

/-- The writer takes one of the ways to write a character. -/
theorem spellsChar_render (c : Char) : SpellsChar c (renderChar c) := by
  have hletter : ∀ e, (e, c) ∈ letterEscapes → SpellsChar c ['\\', e] := fun e => .letter
  unfold renderChar
  split_ifs with hquote hbackslash hback hfeed hline hreturn htab hcontrol
  · exact hletter '"' (by simp [letterEscapes, hquote])
  · exact hletter '\\' (by simp [letterEscapes, hbackslash])
  · exact hletter 'b' (by simp [letterEscapes, hback])
  · exact hletter 'f' (by simp [letterEscapes, hfeed])
  · exact hletter 'n' (by simp [letterEscapes, hline])
  · exact hletter 'r' (by simp [letterEscapes, hreturn])
  · exact hletter 't' (by simp [letterEscapes, htab])
  · exact .unit (unit?_control hcontrol)
  · exact .plain hquote hbackslash (by omega)

/-! ## Strings -/

/-- The ways to write a string: each of its characters in one of its ways, between quotes. -/
def SpellsString (s : String) (cs : List Char) : Prop :=
  ∃ pieces, List.Forall₂ SpellsChar s.toList pieces ∧ cs = '"' :: pieces.flatten ++ ['"']

/-- A character is taken in, if the string does not end in front of it. -/
theorem scanString_of_scanChar {fuel : Nat} {read cs rest : List Char} {c : Char}
    (h : scanChar cs = some (c, rest)) (hquote : cs.head? ≠ some '"') :
    scanString (fuel + 1) read cs = scanString fuel (c :: read) rest := by
  rw [scanString]
  · rw [h]
  · rintro _ rfl
    exact hquote rfl

/-- The characters of a string are read back, each from any piece of text that spells it, up to the
closing quote. -/
theorem scanString_append {chars : List Char} {pieces : List (List Char)}
    (h : List.Forall₂ SpellsChar chars pieces) {fuel : Nat} (hfuel : pieces.length < fuel)
    (read rest : List Char) :
    scanString fuel read (pieces.flatten ++ '"' :: rest) =
      some (String.ofList (read.reverse ++ chars), rest) := by
  induction h generalizing fuel read with
  | nil =>
    obtain ⟨fuel, rfl⟩ := Nat.exists_eq_add_one.mpr hfuel
    simp [scanString]
  | @cons c cs chars pieces hc _ ih =>
    obtain ⟨fuel, rfl⟩ := Nat.exists_eq_add_one.mpr (Nat.zero_lt_of_lt hfuel)
    obtain ⟨d, ds, hcs, hd⟩ := hc.exists_cons
    rw [List.flatten_cons, List.append_assoc, scanString_of_scanChar (scanChar_append hc _),
      ih (by simpa using hfuel)]
    · simp
    · simp [hcs, hd]

/-- Each character of a string takes room in its text. -/
theorem length_le_length_flatten {chars : List Char} {pieces : List (List Char)}
    (h : List.Forall₂ SpellsChar chars pieces) : pieces.length ≤ pieces.flatten.length := by
  induction h with
  | nil => exact Nat.le_refl _
  | cons hc _ ih =>
    obtain ⟨d, ds, rfl, _⟩ := hc.exists_cons
    rw [List.flatten_cons, List.length_append, List.length_cons, List.length_cons]
    omega

/-- **A string is read in whichever way it is written**, and what follows is left over. -/
theorem readString_append {s : String} {cs : List Char} (h : SpellsString s cs)
    (rest : List Char) : readString (cs ++ rest) = some (s, rest) := by
  obtain ⟨pieces, hpieces, rfl⟩ := h
  have hlength := length_le_length_flatten hpieces
  have hfuel : pieces.length < (pieces.flatten ++ '"' :: rest).length + 1 := by
    rw [List.length_append]
    omega
  have hscan := scanString_append hpieces hfuel [] rest
  rw [List.reverse_nil, List.nil_append, String.ofList_toList] at hscan
  simpa [readString] using hscan

/-- The writer takes one of the ways to write a string. -/
theorem spellsString_render (s : String) : SpellsString s (renderString s) := by
  refine ⟨s.toList.map renderChar, ?_, ?_⟩
  · rw [List.forall₂_map_right_iff, List.forall₂_same]
    exact fun c _ => spellsChar_render c
  · rw [renderString, List.flatMap_def]

end SplitHorizon.Json
