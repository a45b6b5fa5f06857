import Mathlib.Data.List.TakeDrop
import Mathlib.Data.List.TakeWhile
/-!
# Runs at the front of a text

Readers take the longest run of characters of some kind off the front of a text. A text that follows
changes nothing about the run, as long as it does not begin with a character of that kind.
-/

namespace SplitHorizon.Text

variable {p : Char → Bool}

/-- No run of characters that satisfy `p` goes on into the text. -/
def Stops (p : Char → Bool) (t : List Char) : Prop := ∀ c ∈ t.head?, p c = false

@[simp]
theorem stops_nil : Stops p [] := nofun

/-- A run stops at a text exactly if the text does not begin with a character of the run. -/
@[simp]
theorem stops_cons {c : Char} {t : List Char} : Stops p (c :: t) ↔ p c = false := by
  simp [Stops]

/-- Where a run stops, so does one of fewer characters. -/
theorem Stops.mono {q : Char → Bool} {t : List Char} (h : Stops p t)
    (hq : ∀ c, q c = true → p c = true) : Stops q t := by
  intro c hc
  rw [← Bool.not_eq_true]
  intro hqc
  have hpc := hq c hqc
  rw [h c hc] at hpc
  cases hpc

/-- What has been read off a text, with another text behind what is left. -/
def leaving {α : Type} (t : List Char) (r : α × List Char) : α × List Char := (r.1, r.2 ++ t)

theorem span_of_stops {t : List Char} (h : Stops p t) : t.span p = ([], t) := by
  cases t with
  | nil => rfl
  | cons c t =>
    rw [stops_cons] at h
    simp [List.span_eq_takeWhile_dropWhile, h]

/-- A text that follows is left over, behind what was left without it. -/
theorem span_append {cs t : List Char} (h : Stops p t) :
    (cs ++ t).span p = leaving t (cs.span p) := by
  induction cs with
  | nil => exact span_of_stops h
  | cons c cs ih =>
    simp only [List.span_eq_takeWhile_dropWhile, leaving, Prod.mk.injEq] at ih ⊢
    cases hc : p c with
    | true => simp [hc, ih]
    | false => simp [hc]

theorem span_eq_self {cs : List Char} (h : ∀ c ∈ cs, p c = true) : cs.span p = (cs, []) := by
  rw [List.span_eq_takeWhile_dropWhile, List.takeWhile_eq_self_iff.mpr h,
    List.dropWhile_eq_nil_iff.mpr h]

/-- A run is read off as far as it goes. -/
theorem span_append_self {cs t : List Char} (hcs : ∀ c ∈ cs, p c = true) (ht : Stops p t) :
    (cs ++ t).span p = (cs, t) := by
  rw [span_append ht, span_eq_self hcs]
  rfl

/-- What is read off and what is left make up the text. -/
theorem append_of_span {cs run rest : List Char} (h : cs.span p = (run, rest)) :
    cs = run ++ rest ∧ ∀ c ∈ run, p c = true := by
  rw [List.span_eq_takeWhile_dropWhile, Prod.mk.injEq] at h
  obtain ⟨rfl, rfl⟩ := h
  exact ⟨List.takeWhile_append_dropWhile.symm, fun c hc => List.mem_takeWhile_imp hc⟩

end SplitHorizon.Text
