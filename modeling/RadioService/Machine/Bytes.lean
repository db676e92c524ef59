import Mathlib.Algebra.Group.Nat.Defs
import Mathlib.Data.List.Basic
import Mathlib.Data.List.GetD
import Mathlib.Logic.Function.Basic

/-!
# Little-endian words and byte buffers

`u16` and `u32` assemble words from bytes by shift and or; `le16` and `le32`
take them apart again.  A `Buffer` is a fixed memory area written one byte at
a time; `Buffer.bytes n` is what stands in its first `n` cells.
-/

namespace Bytes

def u16 (b₀ b₁ : UInt8) : UInt16 := b₀.toUInt16 ||| (b₁.toUInt16 <<< 8)

def u32 (b₀ b₁ b₂ b₃ : UInt8) : UInt32 :=
  b₀.toUInt32 ||| (b₁.toUInt32 <<< 8) ||| (b₂.toUInt32 <<< 16) ||| (b₃.toUInt32 <<< 24)

def le16 (v : UInt16) : List UInt8 := [v.toUInt8, (v >>> 8).toUInt8]

def le32 (v : UInt32) : List UInt8 :=
  [v.toUInt8, (v >>> 8).toUInt8, (v >>> 16).toUInt8, (v >>> 24).toUInt8]

@[simp] theorem length_le32 (v : UInt32) : (le32 v).length = 4 := rfl

/-- Two bytes split off a word give the word back, bit by bit. -/
@[simp] theorem u16_split (v : UInt16) : u16 v.toUInt8 (v >>> 8).toUInt8 = v := by
  apply UInt16.toBitVec_inj.mp
  apply BitVec.eq_of_getLsbD_eq
  intro i hi
  simp [u16, -UInt16.toUInt16_toUInt8]
  grind

@[simp] theorem u32_split (v : UInt32) :
    u32 v.toUInt8 (v >>> 8).toUInt8 (v >>> 16).toUInt8 (v >>> 24).toUInt8 = v := by
  apply UInt32.toBitVec_inj.mp
  apply BitVec.eq_of_getLsbD_eq
  intro i hi
  simp [u32, -UInt32.toUInt32_toUInt8]
  grind

theorem byte_ext {x y : UInt8} (h : ∀ i < 8, x.toBitVec.getLsbD i = y.toBitVec.getLsbD i) :
    x = y :=
  UInt8.toBitVec_inj.mp (BitVec.eq_of_getLsbD_eq h)

/-- The bytes of a word are those it was assembled from. -/
theorem le16_u16 (b₀ b₁ : UInt8) : le16 (u16 b₀ b₁) = [b₀, b₁] := by
  have hlow : (u16 b₀ b₁).toUInt8 = b₀ := by
    refine byte_ext fun i hi ↦ ?_
    simp [u16]
  have hhigh : (u16 b₀ b₁ >>> 8).toUInt8 = b₁ := by
    refine byte_ext fun i hi ↦ ?_
    simp [u16]
    grind
  rw [le16, hlow, hhigh]

theorem le32_u32 (b₀ b₁ b₂ b₃ : UInt8) : le32 (u32 b₀ b₁ b₂ b₃) = [b₀, b₁, b₂, b₃] := by
  have h₀ : (u32 b₀ b₁ b₂ b₃).toUInt8 = b₀ := by
    refine byte_ext fun i hi ↦ ?_
    simp [u32]
  have h₁ : (u32 b₀ b₁ b₂ b₃ >>> 8).toUInt8 = b₁ := by
    refine byte_ext fun i hi ↦ ?_
    simp [u32]
    grind
  have h₂ : (u32 b₀ b₁ b₂ b₃ >>> 16).toUInt8 = b₂ := by
    refine byte_ext fun i hi ↦ ?_
    simp [u32]
    grind
  have h₃ : (u32 b₀ b₁ b₂ b₃ >>> 24).toUInt8 = b₃ := by
    refine byte_ext fun i hi ↦ ?_
    simp [u32]
    grind
  rw [le32, h₀, h₁, h₂, h₃]

/-- Four bytes for every word. -/
theorem exists_words (n : ℕ) {bytes : List UInt8} (h : bytes.length = n * 4) :
    ∃ vs : List UInt32, vs.length = n ∧ vs.flatMap le32 = bytes := by
  induction n generalizing bytes with
  | zero => exact ⟨[], rfl, (List.eq_nil_of_length_eq_zero (by simpa using h)).symm⟩
  | succ n ih =>
      have hword : (bytes.take 4).length = 4 := by
        rw [List.length_take, h]
        omega
      have hrest : (bytes.drop 4).length = n * 4 := by
        rw [List.length_drop, h]
        omega
      obtain ⟨b₀, b₁, b₂, b₃, hfour⟩ := List.length_eq_four.mp hword
      obtain ⟨vs, hcount, hbytes⟩ := ih hrest
      refine ⟨u32 b₀ b₁ b₂ b₃ :: vs, by rw [List.length_cons, hcount], ?_⟩
      rw [List.flatMap_cons, le32_u32, hbytes, ← hfour, List.take_append_drop]

end Bytes

/-- A memory area, addressed from its first cell. -/
abbrev Buffer := ℕ → UInt8

namespace Buffer

open Bytes

def store (buf : Buffer) (i : ℕ) (b : UInt8) : Buffer := Function.update buf i b

def bytes (buf : Buffer) (n : ℕ) : List UInt8 := (List.range n).map buf

def word32 (buf : Buffer) (i : ℕ) : UInt32 :=
  u32 (buf i) (buf (i + 1)) (buf (i + 2)) (buf (i + 3))

@[simp] theorem length_bytes (buf : Buffer) (n : ℕ) : (buf.bytes n).length = n := by
  simp [bytes]

/-- Storing at the first free cell appends. -/
theorem bytes_store_succ (buf : Buffer) (n : ℕ) (b : UInt8) :
    (buf.store n b).bytes (n + 1) = buf.bytes n ++ [b] := by
  have hold : (List.range n).map (buf.store n b) = (List.range n).map buf := by
    apply List.map_congr_left
    intro i hi
    have hne : i ≠ n := Nat.ne_of_lt (List.mem_range.mp hi)
    exact Function.update_of_ne hne b buf
  simp only [bytes, List.range_succ, List.map_append, List.map_singleton, hold]
  simp [store]

/-- A cell read back from the list of bytes it stands in. -/
theorem eq_of_bytes {buf : Buffer} {n : ℕ} {l : List UInt8} (h : buf.bytes n = l) {i : ℕ}
    (hi : i < n) : buf i = l.getD i 0 := by
  subst h
  simp [bytes, List.getD, hi]

/-- The words of a buffer that holds `xs`, a word and `ys`. -/
theorem word32_of_bytes {buf : Buffer} {n : ℕ} (xs ys : List UInt8) {v : UInt32}
    (h : buf.bytes n = xs ++ le32 v ++ ys) : buf.word32 xs.length = v := by
  have hlen : xs.length + 4 + ys.length = n := by
    have := congrArg List.length h
    simpa [Nat.add_assoc] using this.symm
  have hcell : ∀ k < 4, buf (xs.length + k) = (le32 v).getD k 0 := by
    intro k hk
    have hk' : k < (le32 v).length := hk
    rw [eq_of_bytes h (by omega), List.append_assoc, List.getD_append_right _ _ _ _ (by omega),
      Nat.add_sub_cancel_left, List.getD_append _ _ _ _ hk']
  have h₀ := hcell 0 (by decide)
  have h₁ := hcell 1 (by decide)
  have h₂ := hcell 2 (by decide)
  have h₃ := hcell 3 (by decide)
  simp only [Nat.add_zero] at h₀
  rw [word32, h₀, h₁, h₂, h₃]
  exact u32_split v

/-- The consecutive words behind `xs` are the words they were encoded from. -/
theorem words_of_bytes {buf : Buffer} {n : ℕ} (xs : List UInt8) {vs : List UInt32}
    (h : buf.bytes n = xs ++ vs.flatMap le32) :
    (List.range vs.length).map (fun i ↦ buf.word32 (xs.length + i * 4)) = vs := by
  induction vs generalizing xs with
  | nil => rfl
  | cons v vs ih =>
      have hsplit : buf.bytes n = xs ++ le32 v ++ vs.flatMap le32 := by
        simpa [List.append_assoc] using h
      have hrest := ih _ hsplit
      rw [List.length_cons, List.range_succ_eq_map, List.map_cons, List.map_map]
      congr 1
      · simpa using word32_of_bytes _ _ hsplit
      · refine (List.map_congr_left fun i _ ↦ ?_).trans hrest
        have hoff : xs.length + (i + 1) * 4 = (xs ++ le32 v).length + i * 4 := by
          simp only [List.length_append, length_le32]
          omega
        exact congrArg buf.word32 hoff

end Buffer
