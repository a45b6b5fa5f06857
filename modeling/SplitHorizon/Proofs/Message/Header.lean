import SplitHorizon.Message.Codec
import SplitHorizon.Proofs.Wire.Reader
/-!
# Headers and extensions, bit by bit

The flags of a header are read as they were written (`ofFlags_flags`), and so are the parts of an
extension that share one number (`ofRecord_toRecord`). The response code is cut in two: its lower
four bits stand in the header and the upper eight in the extension record, and together they are the
code again (`withHighCode_highCode`).
-/

namespace SplitHorizon

attribute [ext] Edns

/-- A bit that is told by a number is the bit. -/
theorem decide_toNat_eq_one (b : Bool) : decide (b.toNat = 1) = b := by
  cases b <;> rfl

namespace Header

/-- The first byte of flags as a number: each flag counts for its bit. -/
theorem toNat_highFlags (h : Header) :
    h.highFlags.toNat = h.response.toNat * 128 + h.opcode.toNat * 8 + h.authoritative.toNat * 4 +
      h.truncated.toNat * 2 + h.recursionDesired.toNat := by
  have hopcode := h.opcode.isLt
  have hresponse := h.response.toNat_le
  have hauthoritative := h.authoritative.toNat_le
  have htruncated := h.truncated.toNat_le
  have hdesired := h.recursionDesired.toNat_le
  refine UInt8.toNat_ofNat_of_lt' ?_
  show _ < 256
  omega

/-- The second byte of flags as a number: each flag counts for its bit. -/
theorem toNat_lowFlags (h : Header) :
    h.lowFlags.toNat = h.recursionAvailable.toNat * 128 + h.authenticData.toNat * 32 +
      h.checkingDisabled.toNat * 16 + h.code.toNat % 16 := by
  have havailable := h.recursionAvailable.toNat_le
  have hauthentic := h.authenticData.toNat_le
  have hdisabled := h.checkingDisabled.toNat_le
  refine UInt8.toNat_ofNat_of_lt' ?_
  show _ < 256
  omega

/-- A flag is what its bit in the number says. -/
theorem flag_eq {b : UInt8} {bit d : Nat} {value : Bool} (hd : Nat.pow 2 bit = d)
    (h : b.toNat / d % 2 = value.toNat) : flag b bit = value := by
  subst hd
  rw [flag, Nat.testBit_eq_decide_div_mod_eq]
  exact (congrArg (fun n => decide (n = 1)) h).trans (decide_toNat_eq_one value)

/-- **The flags of a header are read as they were written**, but for the upper bits of the code. -/
theorem ofFlags_flags (h : Header) :
    ofFlags h.id h.highFlags h.lowFlags =
      { h with code := BitVec.ofNat 12 (h.code.toNat % 16) } := by
  have hhigh := toNat_highFlags h
  have hlow := toNat_lowFlags h
  have hopcode := h.opcode.isLt
  have hresponse := h.response.toNat_le
  have hauthoritative := h.authoritative.toNat_le
  have htruncated := h.truncated.toNat_le
  have hdesired := h.recursionDesired.toNat_le
  have havailable := h.recursionAvailable.toNat_le
  have hauthentic := h.authenticData.toNat_le
  have hdisabled := h.checkingDisabled.toNat_le
  rw [ofFlags, Header.mk.injEq]
  refine ⟨rfl, flag_eq (d := 128) rfl ?_, BitVec.eq_of_toNat_eq ?_, flag_eq (d := 4) rfl ?_,
    flag_eq (d := 2) rfl ?_, flag_eq (d := 1) rfl ?_, flag_eq (d := 128) rfl ?_,
    flag_eq (d := 32) rfl ?_, flag_eq (d := 16) rfl ?_, BitVec.eq_of_toNat_eq ?_⟩
  · omega
  · rw [BitVec.toNat_ofNat]
    omega
  · omega
  · omega
  · omega
  · omega
  · omega
  · omega
  · rw [BitVec.toNat_ofNat, BitVec.toNat_ofNat]
    omega

/-- The code is put together from its two parts. -/
theorem withHighCode_of_toNat {h : Header} {high : UInt8} (hhigh : high.toNat = h.code.toNat / 16) :
    ({ h with code := BitVec.ofNat 12 (h.code.toNat % 16) } : Header).withHighCode high = h := by
  have hlt := h.code.isLt
  refine congrArg (fun code => { h with code := code }) (BitVec.eq_of_toNat_eq ?_)
  rw [BitVec.toNat_ofNat, BitVec.toNat_ofNat]
  omega

/-- A code that has no upper bits is kept by the header alone. -/
theorem code_of_lt {h : Header} (hcode : h.code.toNat < 16) :
    ({ h with code := BitVec.ofNat 12 (h.code.toNat % 16) } : Header) = h := by
  refine congrArg (fun code => { h with code := code }) (BitVec.eq_of_toNat_eq ?_)
  rw [BitVec.toNat_ofNat]
  omega

/-- A header is read as it was written, but for the upper bits of its code. -/
theorem reads_read (h : Header) {t : Tally} (hquestions : t.questions < 65536)
    (hanswers : t.answers < 65536) (hauthorities : t.authorities < 65536)
    (hadditionals : t.additionals < 65536) :
    Wire.Reader.Reads read (h.put t)
      ({ h with code := BitVec.ofNat 12 (h.code.toNat % 16) }, t) := by
  rw [← ofFlags_flags]
  have hread := (Wire.Reader.reads_number16 h.id).bind
    (f := fun id => do
      let high ← Wire.Reader.number8
      let low ← Wire.Reader.number8
      let questions ← Wire.Reader.number 2
      let answers ← Wire.Reader.number 2
      let authorities ← Wire.Reader.number 2
      let additionals ← Wire.Reader.number 2
      pure (ofFlags id high low, Tally.mk questions answers authorities additionals))
    ((Wire.Reader.reads_number8 h.highFlags).bind ((Wire.Reader.reads_number8 h.lowFlags).bind
      ((Wire.Reader.reads_number 2 hquestions).bind ((Wire.Reader.reads_number 2 hanswers).bind
        ((Wire.Reader.reads_number 2 hauthorities).bind
          ((Wire.Reader.reads_number 2 hadditionals).map fun additionals =>
            (ofFlags h.id h.highFlags h.lowFlags,
              Tally.mk t.questions t.answers t.authorities additionals)))))))
  rw [put]
  simp only [List.append_assoc, List.cons_append, List.nil_append] at hread ⊢
  exact hread

end Header

namespace Edns

/-- The lifetime of an extension record as a number: the upper bits of the code, the version and the
flags. -/
theorem toNat_ttl_toRecord (e : Edns) {high : Nat} (hhigh : high < 256) :
    (e.toRecord high).ttl.toNat = high * 0x1000000 + e.version.toNat * 0x10000 +
      e.dnssecOk.toNat * 0x8000 + e.reserved.toNat := by
  have hversion : e.version.toNat < 256 := e.version.toNat_lt
  have hdnssec := e.dnssecOk.toNat_le
  have hreserved := e.reserved.isLt
  refine UInt32.toNat_ofNat_of_lt' ?_
  show _ < 4294967296
  omega

/-- The upper bits of a code are read back from an extension record. -/
theorem toNat_highCode_toRecord (e : Edns) {high : Nat} (hhigh : high < 256) :
    (highCode (e.toRecord high)).toNat = high := by
  have hversion : e.version.toNat < 256 := e.version.toNat_lt
  have hdnssec := e.dnssecOk.toNat_le
  have hreserved := e.reserved.isLt
  rw [highCode, toNat_ttl_toRecord e hhigh]
  have hdiv : (high * 0x1000000 + e.version.toNat * 0x10000 + e.dnssecOk.toNat * 0x8000 +
      e.reserved.toNat) / 0x1000000 = high := by omega
  rw [hdiv]
  exact UInt8.toNat_ofNat_of_lt' hhigh

/-- **An extension is read from its record as it was written.** -/
theorem ofRecord_toRecord (e : Edns) {high : Nat} (hhigh : high < 256) :
    ofRecord (e.toRecord high) = e := by
  have httl := toNat_ttl_toRecord e hhigh
  have hversion : e.version.toNat < 256 := e.version.toNat_lt
  have hdnssec := e.dnssecOk.toNat_le
  have hreserved := e.reserved.isLt
  ext1
  case payload => exact show (e.toRecord high).classCode = e.payload from rfl
  case version =>
    refine UInt8.toNat_inj.mp ?_
    show (UInt8.ofNat ((e.toRecord high).ttl.toNat / 0x10000)).toNat = _
    rw [httl, UInt8.toNat_ofNat']
    omega
  case dnssecOk =>
    show (e.toRecord high).ttl.toNat.testBit 15 = _
    have hbit : (e.toRecord high).ttl.toNat / 2 ^ 15 % 2 = e.dnssecOk.toNat := by
      rw [httl]
      omega
    rw [Nat.testBit_eq_decide_div_mod_eq, hbit, decide_toNat_eq_one]
  case reserved =>
    refine BitVec.eq_of_toNat_eq ?_
    show (BitVec.ofNat 15 (e.toRecord high).ttl.toNat).toNat = _
    rw [httl, BitVec.toNat_ofNat]
    omega
  case options =>
    rw [ofRecord, toRecord]
    cases e.options <;> rfl

end Edns

end SplitHorizon
