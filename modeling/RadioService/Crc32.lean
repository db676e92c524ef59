import RadioService.Burst
import RadioService.Machine.ReflectedCrc

/-!
# The checksum of a burst

`crc32` is the checksum of IEEE 802.3: the complement of the remainder that the message,
read lowest bit first behind a preset of ones, leaves modulo the generator.
-/

namespace RadioService.Burst

open Polynomial Finset ReflectedCrc

/-- The generator of IEEE 802.3. -/
noncomputable def ieee : (ZMod 2)[X] :=
  X ^ 32 + X ^ 26 + X ^ 23 + X ^ 22 + X ^ 16 + X ^ 12 + X ^ 11 + X ^ 10 + X ^ 8 + X ^ 7 +
    X ^ 5 + X ^ 4 + X ^ 2 + X + 1

/-- The low coefficients of the generator, reflected. -/
def kPoly : BitVec 32 := 0xEDB88320

theorem generator_kPoly : generator kPoly = ieee := by
  simp [generator, poly, ofBits, sum_range_succ, kPoly, ieee]
  ring

def words (data : List UInt8) : List (BitVec 8) := data.map UInt8.toBitVec

/-! ## The register -/

theorem crc32Bit_toBitVec (crc : UInt32) : (crc32Bit crc).toBitVec = shift kPoly crc.toBitVec := by
  have hlow : (crc &&& 1).toBitVec = if crc.toBitVec.getLsbD 0 then 1 else 0 := by
    have hbit : (crc &&& 1).toBitVec =
        (BitVec.ofBool (crc.toBitVec.getLsbD 0)).setWidth 32 := by
      rw [UInt32.toBitVec_and]
      exact BitVec.and_one_eq_setWidth_ofBool_getLsbD
    rw [hbit]
    cases crc.toBitVec.getLsbD 0 <;> rfl
  have hmask : (0 - (crc &&& 1)).toBitVec =
      if crc.toBitVec.getLsbD 0 then BitVec.allOnes 32 else 0 := by
    rw [UInt32.toBitVec_sub, hlow]
    split <;> decide
  have hdown : (crc >>> 1).toBitVec = crc.toBitVec >>> 1 := rfl
  have hpoly : (0xEDB88320 : UInt32).toBitVec = kPoly := rfl
  rw [crc32Bit, UInt32.toBitVec_xor, UInt32.toBitVec_and, hmask, hdown, hpoly, shift]
  split
  · rw [BitVec.and_allOnes]
  · exact congrArg (crc.toBitVec >>> 1 ^^^ ·) BitVec.and_zero

theorem crc32Byte_toBitVec (crc : UInt32) (data : UInt8) :
    (crc32Byte crc data).toBitVec = absorb kPoly crc.toBitVec data.toBitVec := by
  have hbits : ∀ (n : ℕ) (crc : UInt32),
      (crc32Bit^[n] crc).toBitVec = (shift kPoly)^[n] crc.toBitVec := by
    intro n
    induction n with
    | zero => exact fun _ ↦ rfl
    | succ n ih => exact fun crc ↦ (ih (crc32Bit crc)).trans (by rw [crc32Bit_toBitVec]; rfl)
  exact hbits 8 _

theorem foldl_toBitVec (data : List UInt8) (crc : UInt32) :
    (data.foldl crc32Byte crc).toBitVec = (words data).foldl (absorb kPoly) crc.toBitVec := by
  induction data generalizing crc with
  | nil => rfl
  | cons b data ih =>
      rw [words, List.map_cons, List.foldl_cons, List.foldl_cons, ih, crc32Byte_toBitVec]
      rfl

/-- The early return on an empty message agrees with the loop. -/
theorem crc32_toBitVec (data : List UInt8) :
    (crc32 data).toBitVec = ~~~(words data).foldl (absorb kPoly) (BitVec.allOnes 32) := by
  unfold crc32
  split
  · rename_i hnil
    rw [hnil]
    rfl
  · rw [UInt32.toBitVec_not, foldl_toBitVec]
    rfl

/-! ## The remainder -/

/-- The message moved up by the width of the register, behind a preset of ones. -/
noncomputable def dividend (data : List UInt8) : (ZMod 2)[X] :=
  X ^ (8 * data.length) * (∑ i ∈ range 32, X ^ i) + X ^ 32 * message (words data)

theorem poly_allOnes : poly (BitVec.allOnes 32) = ∑ i ∈ range 32, X ^ i := by
  rw [← sum_range_reflect, poly, ofBits]
  refine sum_congr rfl fun i hi ↦ ?_
  rw [BitVec.getLsbD_allOnes, decide_eq_true (mem_range.mp hi), if_pos rfl]

/-- Bit `i` of the checksum is the complement of coefficient `31 - i` of the remainder. -/
theorem crc32_ieee (data : List UInt8) (i : Fin 32) :
    (crc32 data).toBitVec.getLsbD i =
      !decide ((dividend data %ₘ ieee).coeff (31 - (i : ℕ)) = 1) := by
  have hremainder : dividend data %ₘ ieee =
      poly ((words data).foldl (absorb kPoly) (BitVec.allOnes 32)) := by
    rw [poly_foldl (by decide) (by decide), poly_allOnes, generator_kPoly, dividend, words,
      List.length_map]
  have hbits : 31 - (i : ℕ) < 32 ∧ 32 - 1 - (31 - (i : ℕ)) = i := by omega
  rw [hremainder, poly, coeff_ofBits, hbits.2, crc32_toBitVec, BitVec.getLsbD_not,
    decide_eq_true i.isLt, Bool.true_and]
  cases ((words data).foldl (absorb kPoly) (BitVec.allOnes 32)).getLsbD i <;> simp [hbits.1]

/-! ## Bursts of errors -/

/-- Bit `p` of a message, the lowest bit of each byte first. -/
def bitOf (data : List UInt8) (p : ℕ) : Bool := (data.getD (p / 8) 0).toNat.testBit (p % 8)

theorem bitOf_eq (data : List UInt8) (p : ℕ) : bitOf data p = bitAt (words data) p := by
  have hword : (words data).getD (p / 8) 0 = (data.getD (p / 8) 0).toBitVec := by
    simp [words, List.getD_eq_getElem?_getD]
  rw [bitAt, hword, bitOf]
  rfl

/-- Messages of one length whose different bits lie within 32 places have different
checksums. -/
theorem crc32_detects_burst {a b : List UInt8} (hlen : a.length = b.length) (hne : a ≠ b) {k : ℕ}
    (hburst : ∀ p, bitOf a p ≠ bitOf b p → k ≤ p ∧ p < k + 32) : crc32 a ≠ crc32 b := by
  have hconst : (generator kPoly).coeff 0 ≠ 0 := by
    rw [generator_kPoly]
    simp [ieee]
  have hwords : words a ≠ words b :=
    fun h ↦ hne (List.map_injective_iff.mpr (fun _ _ ↦ UInt8.toBitVec_inj.mp) h)
  have hregister := foldl_ne_of_burst (by decide) (by decide) hconst (BitVec.allOnes 32)
    (by simpa [words] using hlen) hwords (k := k) fun p hp ↦ by
      rw [← bitOf_eq, ← bitOf_eq] at hp
      exact hburst p hp
  intro heq
  have hcrc := congrArg UInt32.toBitVec heq
  rw [crc32_toBitVec, crc32_toBitVec] at hcrc
  exact hregister (BitVec.not_inj.mp hcrc)

theorem crc32_detects_bytes : crc32 [0, 0] ≠ crc32 [1, 128] := by
  refine crc32_detects_burst rfl (by decide) (k := 0) fun p hp ↦ ⟨Nat.zero_le p, ?_⟩
  by_contra hfar
  have hout : ∀ data : List UInt8, data.length = 2 → bitOf data p = false := fun data hdata ↦ by
    have hlen : data.length ≤ p / 8 := by omega
    simp [bitOf, List.getD_eq_getElem?_getD, List.getElem?_eq_none hlen]
  exact hp ((hout [0, 0] rfl).trans (hout [1, 128] rfl).symm)

end RadioService.Burst
