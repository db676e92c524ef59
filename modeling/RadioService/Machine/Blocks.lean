import Mathlib.Data.List.Basic
import Mathlib.Data.List.OfFn

/-!
# Blocks of a memory area

An area is a function from addresses to cells.  A block is written at once and
read at once; reading gives back what the last write to each cell put there.
-/

namespace Blocks

variable {α : Type*}

def readBlock (f : ℕ → α) (off n : ℕ) : List α := (List.range n).map fun i ↦ f (off + i)

def writeBlock (f : ℕ → α) (off : ℕ) (data : List α) : ℕ → α := fun i ↦
  if off ≤ i then (data[i - off]?).getD (f i) else f i

@[simp] theorem length_readBlock (f : ℕ → α) (off n : ℕ) : (readBlock f off n).length = n := by
  simp [readBlock]

theorem getElem?_readBlock {f : ℕ → α} {off n i : ℕ} (hi : i < n) :
    (readBlock f off n)[i]? = some (f (off + i)) := by
  simp [readBlock, hi]

theorem readBlock_eq_iff {f : ℕ → α} {off : ℕ} {data : List α} :
    readBlock f off data.length = data ↔ ∀ i (hi : i < data.length), f (off + i) = data[i] := by
  constructor
  · intro h i hi
    have hcell : (readBlock f off data.length)[i]? = data[i]? := congrArg (·[i]?) h
    rw [getElem?_readBlock hi, List.getElem?_eq_getElem hi] at hcell
    exact Option.some.inj hcell
  · intro h
    refine List.ext_getElem (length_readBlock f off _) fun i hi hi' ↦ ?_
    simpa [readBlock] using h i hi'

@[simp] theorem writeBlock_nil (f : ℕ → α) (off : ℕ) : writeBlock f off [] = f := by
  funext i
  simp [writeBlock]

theorem writeBlock_in {f : ℕ → α} {off i : ℕ} {data : List α} (hi : i < data.length) :
    writeBlock f off data (off + i) = data[i] := by
  simp [writeBlock, hi]

theorem writeBlock_out {f : ℕ → α} {off i : ℕ} {data : List α}
    (h : i < off ∨ off + data.length ≤ i) : writeBlock f off data i = f i := by
  unfold writeBlock
  split
  · rw [List.getElem?_eq_none (by omega), Option.getD_none]
  · rfl

/-! ## Areas cut into chunks -/

/-- Write chunks of `n` cells, chunk `i` at `i * n`, in the given order. -/
def writeChunks (f : ℕ → α) (n : ℕ) (chunk : ℕ → List α) (order : List ℕ) : ℕ → α :=
  order.foldl (fun f i ↦ writeBlock f (i * n) (chunk i)) f

theorem writeBlock_chunk {f : ℕ → α} {n j : ℕ} {data : List α} (hn : 0 < n)
    (hdata : data.length = n) {i : ℕ} :
    writeBlock f (j * n) data i = if j = i / n then (data[i % n]?).getD (f i) else f i := by
  have hsplit : i / n * n + i % n = i := Nat.div_add_mod' i n
  have hmod : i % n < n := Nat.mod_lt i hn
  split
  · subst j
    have hsub : i - i / n * n = i % n := by omega
    rw [writeBlock, if_pos (Nat.div_mul_le_self i n), hsub]
  · refine writeBlock_out ?_
    rw [hdata]
    rcases Nat.lt_or_gt_of_ne ‹j ≠ i / n› with hj | hj
    · have hle : (j + 1) * n ≤ i / n * n := Nat.mul_le_mul_right n hj
      rw [Nat.succ_mul] at hle
      omega
    · have hle : (i / n + 1) * n ≤ j * n := Nat.mul_le_mul_right n hj
      rw [Nat.succ_mul] at hle
      omega

/-- Chunks that are written in any order, some of them more than once, stand
where they belong. -/
theorem writeChunks_apply {n : ℕ} {chunk : ℕ → List α} (hn : 0 < n) {order : List ℕ}
    (hchunk : ∀ j ∈ order, (chunk j).length = n) {f : ℕ → α} {i : ℕ} {v : α}
    (hv : (chunk (i / n))[i % n]? = some v) (hi : i / n ∈ order ∨ f i = v) :
    writeChunks f n chunk order i = v := by
  induction order generalizing f with
  | nil => simpa [writeChunks] using hi
  | cons j order ih =>
      have hcell : i / n ∈ order ∨ writeBlock f (j * n) (chunk j) i = v := by
        rw [writeBlock_chunk hn (hchunk j List.mem_cons_self)]
        by_cases hj : j = i / n
        · exact Or.inr (by rw [if_pos hj, hj, hv, Option.getD_some])
        · rw [if_neg hj]
          exact hi.imp_left fun h ↦ (List.mem_cons.mp h).resolve_left (Ne.symm hj)
      exact ih (fun k hk ↦ hchunk k (List.mem_cons_of_mem j hk)) hcell

end Blocks
