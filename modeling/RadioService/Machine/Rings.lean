import RadioService.Machine.Blocks

/-!
# Rings of cells

A ring of `c` cells is addressed by positions that count up for ever; position
`p` is cell `p % c`.  An arc is a run of positions.  It is written in at most
two blocks, and an arc written behind another leaves it alone as long as both
fit the ring.  So a ring can hold the last part of a stream.
-/

namespace Rings

open Blocks

variable {α : Type*} {g : ℕ → α} {c p n : ℕ}

def arc (g : ℕ → α) (c p n : ℕ) : List α := (List.range n).map fun i ↦ g ((p + i) % c)

/-- Write from position `p` on, in two blocks. -/
def writeArc (g : ℕ → α) (c p : ℕ) (data : List α) : ℕ → α :=
  writeBlock (writeBlock g (p % c) (data.take (c - p % c))) 0 (data.drop (c - p % c))

/-! ## Arcs -/

@[simp] theorem length_arc (g : ℕ → α) (c p n : ℕ) : (arc g c p n).length = n := by
  simp [arc]

@[simp] theorem arc_zero (g : ℕ → α) (c p : ℕ) : arc g c p 0 = [] := rfl

theorem arc_congr {g' : ℕ → α} (h : ∀ i < n, g ((p + i) % c) = g' ((p + i) % c)) :
    arc g c p n = arc g' c p n :=
  List.map_congr_left fun i hi ↦ h i (List.mem_range.mp hi)

theorem arc_add (g : ℕ → α) (c p m n : ℕ) :
    arc g c p (m + n) = arc g c p m ++ arc g c (p + m) n := by
  rw [arc, List.range_add, List.map_append, List.map_map]
  simp [arc, Function.comp_def, Nat.add_assoc]

theorem take_arc {m : ℕ} (h : m ≤ n) : (arc g c p n).take m = arc g c p m := by
  obtain ⟨k, rfl⟩ := Nat.exists_eq_add_of_le h
  rw [arc_add]
  exact List.take_left' (length_arc g c p m)

theorem drop_arc {m : ℕ} (h : m ≤ n) : (arc g c p n).drop m = arc g c (p + m) (n - m) := by
  obtain ⟨k, rfl⟩ := Nat.exists_eq_add_of_le h
  rw [arc_add, Nat.add_sub_cancel_left]
  exact List.drop_left' (length_arc g c p m)

/-! ## Blocks of an arc -/

/-- A position less than a round ahead. -/
theorem add_mod_cases {i : ℕ} (hi : i < c) :
    (p % c + i < c ∧ (p + i) % c = p % c + i) ∨
      (c ≤ p % c + i ∧ (p + i) % c = p % c + i - c) := by
  have hp : p % c < c := Nat.mod_lt p (by omega)
  rw [← Nat.mod_add_mod]
  rcases Nat.lt_or_ge (p % c + i) c with h | h
  · exact .inl ⟨h, Nat.mod_eq_of_lt h⟩
  · refine .inr ⟨h, ?_⟩
    rw [Nat.mod_eq_sub_mod h, Nat.mod_eq_of_lt (by omega)]

theorem arc_eq_readBlock (h : p % c + n ≤ c) : arc g c p n = readBlock g (p % c) n := by
  refine List.map_congr_left fun i hi ↦ ?_
  have hin := List.mem_range.mp hi
  rcases add_mod_cases (p := p) (c := c) (i := i) (by omega) with ⟨-, heq⟩ | ⟨hge, -⟩
  · rw [heq]
  · omega

theorem writeArc_in {data : List α} (hfit : data.length ≤ c) {i : ℕ} (hi : i < data.length) :
    writeArc g c p data ((p + i) % c) = data[i] := by
  have hp : p % c < c := Nat.mod_lt p (by omega)
  unfold writeArc
  rcases add_mod_cases (p := p) (c := c) (i := i) (by omega) with ⟨hlt, heq⟩ | ⟨hge, heq⟩
  · have hlen : i < (data.take (c - p % c)).length := by
      rw [List.length_take]
      omega
    rw [heq, writeBlock_out (by rw [List.length_drop]; omega), writeBlock_in hlen,
      List.getElem_take]
  · have hlen : p % c + i - c < (data.drop (c - p % c)).length := by
      rw [List.length_drop]
      omega
    rw [heq, ← Nat.zero_add (p % c + i - c), writeBlock_in hlen, List.getElem_drop]
    congr 1
    omega

theorem writeArc_out {data : List α} {i : ℕ} (hi : data.length ≤ i) (hic : i < c) :
    writeArc g c p data ((p + i) % c) = g ((p + i) % c) := by
  have hp : p % c < c := Nat.mod_lt p (by omega)
  unfold writeArc
  rcases add_mod_cases (p := p) (c := c) (i := i) hic with ⟨hlt, heq⟩ | ⟨hge, heq⟩
  · rw [heq, writeBlock_out (by rw [List.length_drop]; omega),
      writeBlock_out (by rw [List.length_take]; omega)]
  · rw [heq, writeBlock_out (by rw [List.length_drop]; omega),
      writeBlock_out (by rw [List.length_take]; omega)]

/-- An arc written behind another follows it. -/
theorem arc_writeArc {data : List α} (hfit : n + data.length ≤ c) :
    arc (writeArc g c (p + n) data) c p (n + data.length) = arc g c p n ++ data := by
  rw [arc_add]
  congr 1
  · refine arc_congr fun i hi ↦ ?_
    have hround : (p + i) % c = (p + n + (c - n + i)) % c := by
      have hsum : p + n + (c - n + i) = p + i + c := by omega
      rw [hsum, Nat.add_mod_right]
    rw [hround]
    exact writeArc_out (by omega) (by omega)
  · refine List.ext_getElem (length_arc _ _ _ _) fun i hi hi' ↦ ?_
    simpa [arc] using writeArc_in (by omega) hi'

theorem writeArc_eq_writeBlock {data : List α} (h : p % c + data.length ≤ c) :
    writeArc g c p data = writeBlock g (p % c) data := by
  rw [writeArc, List.take_of_length_le (by omega), List.drop_eq_nil_of_le (by omega),
    writeBlock_nil]

/-! ## Streams stored in a ring -/

/-- The cells from position `p` up to `q` hold that part of a stream. -/
def Stores (g : ℕ → α) (c : ℕ) (ws : List α) (p q : ℕ) : Prop :=
  arc g c p (q - p) = (ws.drop p).take (q - p)

namespace Stores

variable {ws : List α} {q : ℕ}

theorem refl (g : ℕ → α) (c : ℕ) (ws : List α) (p : ℕ) : Stores g c ws p p := by
  rw [Stores, Nat.sub_self, arc_zero, List.take_zero]

theorem part (h : Stores g c ws p q) {p' q' : ℕ} (hp : p ≤ p') (hpq : p' ≤ q') (hq : q' ≤ q) :
    Stores g c ws p' q' := by
  have hdrop := congrArg (List.drop (p' - p)) h
  rw [drop_arc (by omega), Nat.add_sub_cancel' hp, List.drop_take, List.drop_drop,
    Nat.add_sub_cancel' hp] at hdrop
  have htake := congrArg (List.take (q' - p')) hdrop
  rw [take_arc (by omega), List.take_take, Nat.min_eq_left (by omega)] at htake
  exact htake

theorem congr (h : Stores g c ws p q) {g' : ℕ → α}
    (hg : ∀ i, p ≤ i ∧ i < q → g (i % c) = g' (i % c)) : Stores g' c ws p q := by
  rw [Stores, ← h]
  exact (arc_congr fun i hi ↦ hg (p + i) ⟨by omega, by omega⟩).symm

theorem write (h : Stores g c ws p q) {data : List α} (hpq : p ≤ q)
    (hdata : data = (ws.drop q).take data.length) (hroom : q + data.length ≤ p + c) :
    Stores (writeArc g c q data) c ws p (q + data.length) := by
  have hlen : q + data.length - p = (q - p) + data.length := by omega
  have harc := arc_writeArc (g := g) (p := p) (by omega : q - p + data.length ≤ c)
  rw [Nat.add_sub_cancel' hpq] at harc
  rw [Stores, hlen, harc, h, List.take_add, List.drop_drop, Nat.add_sub_cancel' hpq, ← hdata]

theorem append (h : Stores g c ws p q) (hq : q ≤ ws.length) (xs : List α) :
    Stores g c (ws ++ xs) p q := by
  rcases Nat.le_total p q with hpq | hqp
  · rw [Stores, h, List.drop_append_of_le_length (by omega),
      List.take_append_of_le_length (by rw [List.length_drop]; omega)]
  · rw [Stores, Nat.sub_eq_zero_of_le hqp, arc_zero, List.take_zero]

end Stores

end Rings
