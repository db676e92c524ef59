import Mathlib.Algebra.Order.Ring.Int
import Mathlib.Tactic.NormNum
import RadioService.Machine.Bytes

/-!
# Packed integers

`pack` writes a list of unbounded integers as the bytes of a packed little-endian
struct.  An integer that its field cannot hold is refused, as a whole.
-/

namespace Struct

open Bytes

/-- A field of a format: an integer of so many bytes, or as many zeros. -/
inductive Field where
  | unsigned (size : ℕ) (v : ℤ)
  | signed (size : ℕ) (v : ℤ)
  | pad (size : ℕ)

/-- The lowest bytes of a number, the lowest first. -/
def lowBytes (size n : ℕ) : List UInt8 :=
  (List.range size).map fun i ↦ UInt8.ofNat (n / 256 ^ i)

namespace Field

def pack : Field → Option (List UInt8)
  | unsigned size v => if 0 ≤ v ∧ v < 256 ^ size then some (lowBytes size v.toNat) else none
  | signed size v =>
    if -256 ^ size ≤ 2 * v ∧ 2 * v < 256 ^ size then
      some (lowBytes size (v % 256 ^ size).toNat)
    else
      none
  | pad size => some (List.replicate size 0)

theorem pack_unsigned {size n : ℕ} (h : n < 256 ^ size) :
    (unsigned size n).pack = some (lowBytes size n) := by
  have hle : (n : ℤ) < 256 ^ size := by exact_mod_cast h
  simp [pack, hle]

end Field

def pack : List Field → Option (List UInt8)
  | [] => some []
  | f :: fields => do return (← f.pack) ++ (← pack fields)

@[simp] theorem pack_nil : pack [] = some [] := rfl

theorem pack_cons {f : Field} {fields : List Field} {b bs : List UInt8} (h : f.pack = some b)
    (hs : pack fields = some bs) : pack (f :: fields) = some (b ++ bs) := by
  rw [pack, h, hs]
  rfl

/-! ## Machine words -/

theorem lowBytes_one (n : ℕ) : lowBytes 1 n = [UInt8.ofNat n] := by
  simp [lowBytes]

theorem lowBytes_two {n : ℕ} (h : n < 65536) : lowBytes 2 n = le16 (UInt16.ofNat n) := by
  have hlow : UInt8.ofNat n = (UInt16.ofNat n).toUInt8 := by
    apply UInt8.toNat_inj.mp
    simp
  have hhigh : UInt8.ofNat (n / 256) = (UInt16.ofNat n >>> 8).toUInt8 := by
    apply UInt8.toNat_inj.mp
    rw [UInt16.toNat_toUInt8, UInt16.toNat_shiftRight, UInt16.toNat_ofNat', Nat.mod_eq_of_lt h,
      UInt8.toNat_ofNat']
    exact congrArg (· % 2 ^ 8) (Nat.shiftRight_eq_div_pow n 8).symm
  simp only [lowBytes, List.range_succ, List.range_zero, List.nil_append, List.cons_append,
    List.map_cons, List.map_nil, pow_zero, pow_one, Nat.div_one, hlow, hhigh]
  rfl

theorem lowBytes_four {n : ℕ} (h : n < 4294967296) : lowBytes 4 n = le32 (UInt32.ofNat n) := by
  have hlow : UInt8.ofNat n = (UInt32.ofNat n).toUInt8 := by
    apply UInt8.toNat_inj.mp
    simp
  have hbyte : ∀ k, 0 < k → k < 4 →
      UInt8.ofNat (n / 256 ^ k) = (UInt32.ofNat n >>> UInt32.ofNat (8 * k)).toUInt8 := by
    intro k hpos hk
    have hshift : (UInt32.ofNat (8 * k)).toNat % 32 = 8 * k := by
      rw [UInt32.toNat_ofNat']
      omega
    have hpow : (256 : ℕ) ^ k = 2 ^ (8 * k) := by rw [Nat.pow_mul]
    apply UInt8.toNat_inj.mp
    rw [UInt32.toNat_toUInt8, UInt32.toNat_shiftRight, hshift, UInt32.toNat_ofNat',
      Nat.mod_eq_of_lt h, Nat.shiftRight_eq_div_pow, UInt8.toNat_ofNat', hpow]
  have h₁ := hbyte 1 (by decide) (by decide)
  have h₂ := hbyte 2 (by decide) (by decide)
  have h₃ := hbyte 3 (by decide) (by decide)
  simp only [lowBytes, List.range_succ, List.range_zero, List.nil_append, List.cons_append,
    List.map_cons, List.map_nil, pow_zero, Nat.div_one, hlow, h₁, h₂, h₃]
  rfl

theorem unsigned_one {n : ℕ} (h : n < 256) :
    (Field.unsigned 1 n).pack = some [UInt8.ofNat n] := by
  rw [Field.pack_unsigned h, lowBytes_one]

theorem unsigned_two {n : ℕ} (h : n < 65536) :
    (Field.unsigned 2 n).pack = some (le16 (UInt16.ofNat n)) := by
  rw [Field.pack_unsigned h, lowBytes_two h]

theorem unsigned_four {n : ℕ} (h : n < 4294967296) :
    (Field.unsigned 4 n).pack = some (le32 (UInt32.ofNat n)) := by
  rw [Field.pack_unsigned h, lowBytes_four h]

/-- The words as they are. -/
@[simp] theorem unsigned_uint8 (b : UInt8) : (Field.unsigned 1 b.toNat).pack = some [b] := by
  rw [unsigned_one b.toNat_lt, UInt8.ofNat_toNat]

@[simp] theorem unsigned_uint16 (w : UInt16) :
    (Field.unsigned 2 w.toNat).pack = some (le16 w) := by
  rw [unsigned_two w.toNat_lt, UInt16.ofNat_toNat]

@[simp] theorem unsigned_uint32 (w : UInt32) :
    (Field.unsigned 4 w.toNat).pack = some (le32 w) := by
  rw [unsigned_four w.toNat_lt, UInt32.ofNat_toNat]

theorem pack_uint32 (w : UInt32) {fields : List Field} {bs : List UInt8}
    (h : pack fields = some bs) :
    pack (.unsigned 4 w.toNat :: fields) = some (le32 w ++ bs) :=
  pack_cons (unsigned_uint32 w) h

/-- A signed word has the bytes of its two's complement. -/
@[simp] theorem signed_int16 (r : Int16) :
    (Field.signed 2 r.toInt).pack = some (le16 r.toUInt16) := by
  have hlow := r.le_toInt
  have hhigh := r.toInt_lt
  have hmod : (r.toInt % 256 ^ 2).toNat = r.toUInt16.toNat := by
    have hcond := BitVec.toInt_eq_toNat_cond r.toBitVec
    have hint : r.toInt = r.toBitVec.toInt := rfl
    have hnat : r.toUInt16.toNat = r.toBitVec.toNat := rfl
    have hlt := r.toBitVec.isLt
    rw [hint, hcond, hnat]
    split <;> omega
  have hrange : -256 ^ 2 ≤ 2 * r.toInt ∧ 2 * r.toInt < 256 ^ 2 := by omega
  rw [Field.pack, if_pos hrange, hmod, lowBytes_two r.toUInt16.toNat_lt, UInt16.ofNat_toNat]

@[simp] theorem pad_pack (size : ℕ) : (Field.pad size).pack = some (List.replicate size 0) := rfl

end Struct
