import SplitHorizon.Message.Options
import SplitHorizon.Proofs.Wire.Reader
/-!
# Options as they are read

An option that was read can be written and is read again as it is (`Lasts`): its value has a length
of 16 bits, and what is looked into has been cut to what counts. So the body of an extension record
that is made of options that were read gives these options back (`readBody_flatMap_put`), and takes
no more bytes than the body that they were read from (`readBody_spec`).
-/

namespace SplitHorizon.EdnsOption

open Wire (splitExactly splitExactly_eq_some_iff)

/-- An option that is read as it is written. -/
structure Lasts (o : EdnsOption) : Prop where
  value : ofBytes o.code o.value = some o
  length : o.value.length < 65536

/-! ## One option -/

/-- A subnet that was read is cut to what counts. -/
theorem subnet?_spec {bytes value : List UInt8} (h : subnet? bytes = some value) :
    subnet? value = some value ∧ value.length ≤ bytes.length := by
  match bytes with
  | f :: g :: source :: scope :: bytes =>
    obtain ⟨limit, hlimit, h⟩ := Option.bind_eq_some_iff.mp h
    obtain ⟨_, hguard, h⟩ := Option.bind_eq_some_iff.mp h
    obtain ⟨⟨address, rest⟩, hsplit, h⟩ := Option.bind_eq_some_iff.mp h
    cases h
    obtain ⟨hlength, rfl⟩ := splitExactly_eq_some_iff.mp hsplit
    have hself : splitExactly (prefixBytes source) address = some (address, []) :=
      splitExactly_eq_some_iff.mpr ⟨hlength, List.append_nil _⟩
    refine ⟨?_, ?_⟩
    · refine Option.bind_eq_some_iff.mpr ⟨limit, hlimit, ?_⟩
      refine Option.bind_eq_some_iff.mpr ⟨_, hguard, ?_⟩
      exact Option.bind_eq_some_iff.mpr ⟨_, hself, rfl⟩
    · simp only [List.length_cons, List.length_append]
      omega
  | [] | [_] | [_, _] | [_, _, _] => cases h

/-- An option that was read is read again from its value, which takes no more bytes than before. -/
theorem ofBytes_spec {code : UInt16} {bytes : List UInt8} {o : EdnsOption}
    (h : ofBytes code bytes = some o) :
    ofBytes o.code o.value = some o ∧ o.value.length ≤ bytes.length := by
  unfold ofBytes at h
  split at h
  · rename_i hcode
    obtain ⟨value, hvalue, rfl⟩ := Option.map_eq_some_iff.mp h
    obtain ⟨hsame, hlength⟩ := subnet?_spec hvalue
    refine ⟨?_, hlength⟩
    show (if code = subnetCode then (subnet? value).map _ else _) = _
    rw [if_pos hcode, hsame]
    rfl
  · rename_i hcode
    cases h
    exact ⟨if_neg hcode, Nat.le_refl _⟩

theorem length_put (o : EdnsOption) : (put o).length = o.value.length + 4 := by
  rw [put, List.length_append, List.length_append, Wire.put16, Wire.put16, Places.length_bytes,
    Places.length_bytes]
  omega

/-! ## All options -/

/-- Options that were read last, and written again they take no more bytes. -/
theorem readList_spec {size fuel : Nat} {bytes : List UInt8} {l : Listed}
    (h : readList size fuel bytes = some l) :
    (∀ o ∈ l.options, o.Lasts) ∧ (l.options.flatMap put).length ≤ bytes.length := by
  fun_induction readList size fuel bytes generalizing l with
  | case1 => cases h
  | case2 =>
    cases h
    exact ⟨nofun, Nat.zero_le _⟩
  | case3 => cases h
  | case4 =>
    cases h
    exact ⟨nofun, Nat.zero_le _⟩
  | case5 => cases h
  | case6 => cases h
  | case7 =>
    cases h
    exact ⟨nofun, Nat.zero_le _⟩
  | case8 fuel a b c d rest length hle value rest' hsplit =>
    rename_i ih
    obtain ⟨o, ho, h⟩ := Option.bind_eq_some_iff.mp h
    obtain ⟨more, hmore, h⟩ := Option.bind_eq_some_iff.mp h
    cases h
    obtain ⟨hlength, rfl⟩ := splitExactly_eq_some_iff.mp hsplit
    obtain ⟨hsame, hle⟩ := ofBytes_spec ho
    obtain ⟨hlasts, htotal⟩ := ih hmore
    have hbytes : Places.ofBytes [c, d] < Places.capacity 2 := Places.ofBytes_lt [c, d]
    have hvalue : value.length < 65536 := lt_of_eq_of_lt hlength hbytes
    refine ⟨fun o' ho' => ?_, ?_⟩
    · rcases List.mem_cons.mp ho' with rfl | ho'
      · exact ⟨hsame, Nat.lt_of_le_of_lt hle hvalue⟩
      · exact hlasts o' ho'
    · simp only [List.flatMap_cons, List.length_append, length_put, List.length_cons]
      omega

/-- Options that were read off a body are ones that last, and they take no more bytes when they are
written again. -/
theorem readBody_spec {bytes : List UInt8} {list : List EdnsOption}
    (h : readBody bytes = some list) :
    (∀ o ∈ list, o.Lasts) ∧ (list.flatMap put).length ≤ bytes.length := by
  obtain ⟨l, hl, rfl⟩ := Option.map_eq_some_iff.mp h
  split
  · exact readList_spec hl
  · exact ⟨nofun, Nat.zero_le _⟩

/-- A number of 16 bits is two bytes. -/
theorem exists_put16 (n : UInt16) : ∃ a b, Wire.put16 n = [a, b] := ⟨_, _, rfl⟩

/-- Options that last are read from their bytes, each by itself. -/
theorem readList_flatMap_put {size fuel : Nat} {list : List EdnsOption}
    (hlasts : ∀ o ∈ list, o.Lasts) (hsize : (list.flatMap put).length ≤ size)
    (hfuel : (list.flatMap put).length < fuel) :
    readList size fuel (list.flatMap put) = some ⟨list, true⟩ := by
  induction list generalizing fuel with
  | nil =>
    cases fuel with
    | zero => cases hfuel
    | succ fuel => rfl
  | cons o list ih =>
    cases fuel with
    | zero => cases hfuel
    | succ fuel =>
      obtain ⟨hvalue, hlength⟩ := hlasts o List.mem_cons_self
      rw [List.flatMap_cons, List.length_append, length_put] at hsize hfuel
      have hrest : readList size fuel (list.flatMap put) = some ⟨list, true⟩ :=
        ih (fun o ho => hlasts o (List.mem_cons_of_mem _ ho)) (by omega) (by omega)
      have hcount : (UInt16.ofNat o.value.length).toNat = o.value.length :=
        UInt16.toNat_ofNat_of_lt' hlength
      obtain ⟨a, b, hcode⟩ := exists_put16 o.code
      obtain ⟨c, d, hnumber⟩ := exists_put16 (UInt16.ofNat o.value.length)
      have hbytes : (o :: list).flatMap put =
          a :: b :: c :: d :: (o.value ++ list.flatMap put) := by
        rw [List.flatMap_cons, put, hcode, hnumber]
        simp only [List.cons_append, List.nil_append]
      have hlen : Places.ofBytes [c, d] = o.value.length := by
        rw [← hnumber, Wire.put16, hcount]
        exact Places.ofBytes_bytes hlength
      have hof : UInt16.ofNat (Places.ofBytes [a, b]) = o.code := by
        rw [← hcode, Wire.put16, Places.ofBytes_bytes o.code.toNat_lt, UInt16.ofNat_toNat]
      have hsplit : splitExactly o.value.length (o.value ++ list.flatMap put) =
          some (o.value, list.flatMap put) := splitExactly_eq_some_iff.mpr ⟨rfl, rfl⟩
      rw [hbytes, readList, hlen, if_neg (by omega), hsplit, hof]
      show (ofBytes o.code o.value >>= fun o =>
        readList size fuel (list.flatMap put) >>= fun more =>
          some { more with options := o :: more.options }) = _
      rw [hvalue, hrest]
      rfl

/-- **Options that were read are read again from the body that they make.** -/
theorem readBody_flatMap_put {list : List EdnsOption} (hlasts : ∀ o ∈ list, o.Lasts) :
    readBody (list.flatMap put) = some list := by
  rw [readBody, readList_flatMap_put hlasts (Nat.le_refl _) (Nat.lt_succ_self _)]
  rfl

end SplitHorizon.EdnsOption
