import SplitHorizon.Answers.Load
/-!
# The order of networks

The zones of a store stand in order of their networks, the longest prefix first, and those of one
length as they stand in the document. `mergeSort_narrower` says so without a sort: the store's list
is the document's list taken once for each length, from the longest down.

From this follows what a search for the first zone with an answer finds
(`findSome?_mergeSort_narrower`): one that is narrower than every other candidate before it in the
document, and not wider than any behind it.
-/

namespace SplitHorizon

/-! ## Classes of a sorted list -/

section

variable {α : Type} {key : α → Nat}

/-- A list with falling keys of which none is above `n` begins with all items of key `n`. -/
theorem filter_append_filter_of_pairwise {n : Nat} {l : List α}
    (hl : l.Pairwise fun a b => key b ≤ key a) (hn : ∀ a ∈ l, key a ≤ n) :
    (l.filter fun a => key a == n) ++ (l.filter fun a => key a < n) = l := by
  induction l with
  | nil => rfl
  | cons a l ih =>
    obtain ⟨ha, hl⟩ := List.pairwise_cons.mp hl
    have ih := ih hl fun b hb => hn b (List.mem_cons_of_mem _ hb)
    have hle := hn a List.mem_cons_self
    rcases Nat.lt_or_eq_of_le hle with hlt | heq
    · have hnone : l.filter (fun b => key b == n) = [] := by
        rw [List.filter_eq_nil_iff]
        intro b hb
        have := ha b hb
        simp only [beq_iff_eq]
        omega
      have hall : l.filter (fun b => key b < n) = l := by
        rw [List.filter_eq_self]
        intro b hb
        have := ha b hb
        simp only [decide_eq_true_eq]
        omega
      rw [List.filter_cons_of_neg (by simp only [beq_iff_eq]; omega),
        List.filter_cons_of_pos (by simpa only [decide_eq_true_eq] using hlt), hnone, hall]
      rfl
    · rw [List.filter_cons_of_pos (by simpa only [beq_iff_eq] using heq),
        List.filter_cons_of_neg (by simp only [decide_eq_true_eq]; omega), List.cons_append, ih]

/-- A list with falling keys below `n` is its items of each key, from the highest key down. -/
theorem flatMap_filter_of_pairwise {n : Nat} {l : List α}
    (hl : l.Pairwise fun a b => key b ≤ key a) (hn : ∀ a ∈ l, key a < n) :
    ((List.range n).reverse.flatMap fun k => l.filter fun a => key a == k) = l := by
  induction n generalizing l with
  | zero =>
    cases l with
    | nil => rfl
    | cons a l => exact absurd (hn a List.mem_cons_self) (Nat.not_lt_zero _)
  | succ n ih =>
    have hbelow : ((List.range n).reverse.flatMap fun k => l.filter fun a => key a == k) =
        l.filter fun a => key a < n := by
      refine Eq.trans ?_ (ih (hl.filter fun a => key a < n) fun a ha => ?_)
      · rw [List.flatMap_def, List.flatMap_def]
        congr 1
        refine List.map_congr_left fun k hk => ?_
        rw [List.filter_filter]
        refine List.filter_congr fun a _ => ?_
        have hk : k < n := List.mem_range.mp (List.mem_reverse.mp hk)
        by_cases ha : key a = k
        · simp only [ha, BEq.rfl, hk, decide_true, Bool.and_self]
        · simp only [beq_eq_false_iff_ne.mpr ha, Bool.false_and]
      · exact of_decide_eq_true (List.mem_filter.mp ha).2
    rw [List.range_succ, List.reverse_append, List.reverse_singleton, List.singleton_append,
      List.flatMap_cons, hbelow]
    exact filter_append_filter_of_pairwise hl fun a ha => Nat.le_of_lt_succ (hn a ha)

/-- Sorting by falling keys leaves the items of one key as they stand. -/
theorem filter_mergeSort (key : α → Nat) (l : List α) (k : Nat) :
    ((l.mergeSort fun a b => key b ≤ key a).filter fun a => key a == k) =
      l.filter fun a => key a == k := by
  have htrans : ∀ a b c : α, decide (key b ≤ key a) = true → decide (key c ≤ key b) = true →
      decide (key c ≤ key a) = true := by
    intro a b c hab hbc
    simp only [decide_eq_true_eq] at hab hbc ⊢
    omega
  have htotal : ∀ a b : α, (decide (key b ≤ key a) || decide (key a ≤ key b)) = true := by
    intro a b
    simp only [Bool.or_eq_true, decide_eq_true_eq]
    omega
  have hclass : (l.filter fun a => key a == k).Pairwise
      fun a b => decide (key b ≤ key a) = true := by
    refine List.pairwise_of_forall_mem_list fun a ha b hb => ?_
    have ha := beq_iff_eq.mp (List.mem_filter.mp ha).2
    have hb := beq_iff_eq.mp (List.mem_filter.mp hb).2
    simp only [decide_eq_true_eq]
    omega
  have hsub := (List.sublist_mergeSort htrans htotal hclass List.filter_sublist).filter
    fun a => key a == k
  rw [List.filter_filter] at hsub
  simp only [Bool.and_self] at hsub
  refine (hsub.eq_of_length ?_).symm
  exact ((List.mergeSort_perm l _).filter _).length_eq.symm

end

/-! ## Zones of networks -/

namespace Network

/-- All prefix lengths, the longest first. -/
def lengths : List Nat := (List.range 129).reverse

/-- No prefix is longer than 128 bits. -/
theorem length_lt (net : Network) : net.length < 129 := by
  cases net with
  | v4 bits n h =>
    show n < 129
    omega
  | v6 bits n h =>
    show n < 129
    omega

end Network

/-- The zones of a store stand by falling prefix lengths. -/
theorem pairwise_mergeSort_narrower (zs : List NetworkZone) :
    (zs.mergeSort fun a b => b.network.length ≤ a.network.length).Pairwise
      fun a b => b.network.length ≤ a.network.length := by
  have hsorted : (zs.mergeSort fun a b => b.network.length ≤ a.network.length).Pairwise
      fun a b => decide (b.network.length ≤ a.network.length) = true :=
    List.pairwise_mergeSort
      (fun a b c hab hbc => by simp only [decide_eq_true_eq] at hab hbc ⊢; omega)
      (fun a b => by simp only [Bool.or_eq_true, decide_eq_true_eq]; omega) zs
  simpa only [decide_eq_true_eq] using hsorted

/-- **The zones of a store are those of the document, one prefix length after the other**, from the
longest down, and within one length as they stand there. -/
theorem mergeSort_narrower (zs : List NetworkZone) :
    (zs.mergeSort fun a b => b.network.length ≤ a.network.length) =
      Network.lengths.flatMap fun n => zs.filter fun z => z.network.length == n := by
  refine (flatMap_filter_of_pairwise (pairwise_mergeSort_narrower zs)
    fun z _ => z.network.length_lt).symm.trans ?_
  rw [List.flatMap_def, List.flatMap_def]
  exact congrArg List.flatten (List.map_congr_left fun n _ => filter_mergeSort _ zs n)

/-- **The first answer of a store's zones is that of a candidate which is narrower than those before
it in the document and not wider than those behind it.** -/
theorem findSome?_mergeSort_narrower {β : Type} {zs : List NetworkZone}
    {f : NetworkZone → Option β} {b : β}
    (h : (zs.mergeSort fun a b => b.network.length ≤ a.network.length).findSome? f = some b) :
    ∃ before z after, zs = before ++ z :: after ∧ f z = some b ∧
      (∀ z' ∈ before, f z' ≠ none → z'.network.length < z.network.length) ∧
      (∀ z' ∈ after, f z' ≠ none → z'.network.length ≤ z.network.length) := by
  obtain ⟨front, z, back, hsort, hz, hfront⟩ := List.findSome?_eq_some_iff.mp h
  have hsorted := pairwise_mergeSort_narrower zs
  rw [hsort] at hsorted
  have hback : ∀ z' ∈ back, z'.network.length ≤ z.network.length :=
    (List.pairwise_cons.mp (List.pairwise_append.mp hsorted).2.1).1
  have hmax : ∀ z' ∈ zs, f z' ≠ none → z'.network.length ≤ z.network.length := by
    intro z' hz' hf
    have hperm := List.mergeSort_perm zs fun a b => b.network.length ≤ a.network.length
    rw [hsort] at hperm
    rcases List.mem_append.mp (hperm.mem_iff.mpr hz') with hmem | hmem
    · exact absurd (hfront z' hmem) hf
    rcases List.mem_cons.mp hmem with rfl | hmem
    · exact Nat.le_refl _
    · exact hback z' hmem
  -- the zones of this length stand in the document as they stand in the store
  have hclass := filter_mergeSort (fun z : NetworkZone => z.network.length) zs z.network.length
  rw [hsort, List.filter_append, List.filter_cons_of_pos (by simp only [BEq.rfl])] at hclass
  obtain ⟨zs₁, zs₂, rfl, hzs₁, hzs₂⟩ := List.filter_eq_append_iff.mp hclass.symm
  obtain ⟨zs₃, after, rfl, hzs₃, _, _⟩ := List.filter_eq_cons_iff.mp hzs₂
  refine ⟨zs₁ ++ zs₃, z, after, by rw [List.append_assoc], hz, ?_, ?_⟩
  · intro z' hz' hf
    refine Nat.lt_of_le_of_ne (hmax z' ?_ hf) fun heq => ?_
    · rw [← List.append_assoc]
      exact List.mem_append_left _ hz'
    · rcases List.mem_append.mp hz' with hz' | hz'
      · have hmem : z' ∈ zs₁.filter fun a => a.network.length == z.network.length :=
          List.mem_filter.mpr ⟨hz', beq_iff_eq.mpr heq⟩
        rw [hzs₁] at hmem
        exact hf (hfront z' (List.mem_filter.mp hmem).1)
      · exact hzs₃ z' hz' (beq_iff_eq.mpr heq)
  · intro z' hz' hf
    refine hmax z' ?_ hf
    exact List.mem_append_right _ (List.mem_append_right _ (List.mem_cons_of_mem _ hz'))

end SplitHorizon
