import Mathlib.Data.List.Basic

/-!
# Streams of items with no separator

A decoder takes one item off the front of a stream.  If it undoes an encoder
whatever follows, then the items of a concatenation can be told apart.  A reader
that falls behind may lose bytes in front of what it reads next; it still reads
whole items if what it loses is whole items.
-/

namespace Streams

variable {α β γ : Type}

/-- Take at most `fuel` items off the front of a stream, and nothing may be left. -/
def decodeUpTo (decode : List α → Option (β × List α)) : ℕ → List α → Option (List β)
  | _, [] => some []
  | 0, _ :: _ => none
  | fuel + 1, a :: as => do
    let (b, rest) ← decode (a :: as)
    let bs ← decodeUpTo decode fuel rest
    return b :: bs

/-- An item takes a cell at least, so the length of the stream is fuel enough. -/
def decodeAll (decode : List α → Option (β × List α)) (as : List α) : Option (List β) :=
  decodeUpTo decode as.length as

/-- `decode` undoes `encode` at `c`, whatever follows, and shows `view c`. -/
def Undoes (decode : List α → Option (β × List α)) (encode : γ → List α) (view : γ → β)
    (c : γ) : Prop :=
  encode c ≠ [] ∧ ∀ rest, decode (encode c ++ rest) = some (view c, rest)

variable {decode : List α → Option (β × List α)} {encode : γ → List α} {view : γ → β}

theorem decodeUpTo_append {c : γ} (h : Undoes decode encode view c) {rest : List α} {bs : List β}
    {fuel : ℕ} (hrest : decodeUpTo decode fuel rest = some bs) :
    decodeUpTo decode (fuel + 1) (encode c ++ rest) = some (view c :: bs) := by
  obtain ⟨hne, hdecode⟩ := h
  have hitem := hdecode rest
  cases hc : encode c with
  | nil => exact absurd hc hne
  | cons a as =>
      rw [hc, List.cons_append] at hitem
      simp [decodeUpTo, hitem, hrest]

/-- The items of a concatenation, in order. -/
theorem decodeAll_flatMap {cs : List γ} (h : ∀ c ∈ cs, Undoes decode encode view c) :
    decodeAll decode (cs.flatMap encode) = some (cs.map view) := by
  have hfuel : ∀ fuel, (cs.flatMap encode).length ≤ fuel →
      decodeUpTo decode fuel (cs.flatMap encode) = some (cs.map view) := by
    induction cs with
    | nil => intro fuel _; cases fuel <;> rfl
    | cons c cs ih =>
        intro fuel hlen
        have hc := h c List.mem_cons_self
        have hpos : 0 < (encode c).length := List.length_pos_iff.mpr hc.1
        rw [List.flatMap_cons, List.length_append] at hlen
        obtain ⟨fuel, rfl⟩ : ∃ n, fuel = n + 1 := ⟨fuel - 1, by omega⟩
        rw [List.flatMap_cons, List.map_cons]
        exact decodeUpTo_append hc
          (ih (fun d hd ↦ h d (List.mem_cons_of_mem c hd)) fuel (by omega))
  exact hfuel _ (Nat.le_refl _)

/-! ## Lossy readers -/

/-- Position `p` in the stream of `cs` stands between two items. -/
def Boundary (encode : γ → List α) (cs : List γ) (p : ℕ) : Prop :=
  ∃ k ≤ cs.length, p = ((cs.take k).flatMap encode).length

/-- Of the stream of `cs` the reader has read `out` and finds `rest` in front of
it; what it has lost on the way are whole items. -/
def Reads (encode : γ → List α) (cs : List γ) (out rest : List α) : Prop :=
  ∃ k kept, k ≤ cs.length ∧ kept.Sublist (cs.take k) ∧
    (kept.flatMap encode).length ≤ out.length ∧
      out ++ rest = (kept ++ cs.drop k).flatMap encode

section

variable {cs : List γ} {p : ℕ} {out rest : List α}

theorem drop_flatMap {k : ℕ} (h : p = ((cs.take k).flatMap encode).length) :
    (cs.flatMap encode).drop p = (cs.drop k).flatMap encode := by
  have hsplit : cs.flatMap encode =
      (cs.take k).flatMap encode ++ (cs.drop k).flatMap encode := by
    rw [← List.flatMap_append, List.take_append_drop]
  rw [hsplit]
  exact List.drop_left' h.symm

/-- A boundary behind the first `k` items has its index from `k` on. -/
theorem Boundary.behind {k : ℕ} (h : Boundary encode cs p) (hk : k ≤ cs.length)
    (hle : ((cs.take k).flatMap encode).length ≤ p) :
    ∃ i, k ≤ i ∧ i ≤ cs.length ∧ p = ((cs.take i).flatMap encode).length := by
  obtain ⟨i, hi, hp⟩ := h
  rcases Nat.le_total k i with hki | hik
  · exact ⟨i, hki, hi, hp⟩
  · refine ⟨k, Nat.le_refl k, hk, Nat.le_antisymm ?_ hle⟩
    have hsplit : cs.take k = cs.take i ++ (cs.drop i).take (k - i) := by
      rw [← List.take_add, Nat.add_sub_cancel' hik]
    rw [hp, hsplit, List.flatMap_append, List.length_append]
    exact Nat.le_add_right _ _

namespace Reads

theorem nil : Reads encode ([] : List γ) [] [] :=
  ⟨0, [], Nat.le_refl 0, List.nil_sublist _, Nat.le_refl 0, rfl⟩

theorem emit (h : Reads encode cs out rest) (c : γ) :
    Reads encode (cs ++ [c]) out (rest ++ encode c) := by
  obtain ⟨k, kept, hk, hkept, hlen, hsplit⟩ := h
  have hk' : k ≤ (cs ++ [c]).length := by
    rw [List.length_append]
    omega
  refine ⟨k, kept, hk', ?_, hlen, ?_⟩
  · rwa [List.take_append_of_le_length hk]
  · rw [List.drop_append_of_le_length hk, ← List.append_assoc, hsplit]
    simp

theorem read {xs : List α} (h : Reads encode cs out (xs ++ rest)) :
    Reads encode cs (out ++ xs) rest := by
  obtain ⟨k, kept, hk, hkept, hlen, hsplit⟩ := h
  refine ⟨k, kept, hk, hkept, ?_, by rw [List.append_assoc, hsplit]⟩
  rw [List.length_append]
  omega

theorem discard {d : ℕ} (h : Reads encode cs out rest)
    (hfrom : Boundary encode cs ((cs.flatMap encode).length - rest.length))
    (hto : Boundary encode cs ((cs.flatMap encode).length - rest.length + d)) :
    Reads encode cs out (rest.drop d) := by
  obtain ⟨k, kept, hk, hkept, hlen, hsplit⟩ := h
  rw [List.flatMap_append] at hsplit
  have hrest : (cs.drop k).flatMap encode =
      out.drop (kept.flatMap encode).length ++ rest := by
    have := congrArg (List.drop (kept.flatMap encode).length) hsplit
    rwa [List.drop_append_of_le_length hlen, List.drop_left, eq_comm] at this
  have hstream : cs.flatMap encode =
      (cs.take k).flatMap encode ++ out.drop (kept.flatMap encode).length ++ rest := by
    rw [List.append_assoc, ← hrest, ← List.flatMap_append, List.take_append_drop]
  have hsize := congrArg List.length hstream
  rw [List.length_append, List.length_append] at hsize
  -- the items k to i are read but not in `kept` yet, those from i to j are lost
  obtain ⟨i, hki, hi, hpi⟩ := hfrom.behind hk (by omega)
  obtain ⟨j, hij, hj, hpj⟩ := hto.behind hi (by omega)
  have hfront : rest = (cs.drop i).flatMap encode := by
    rw [← drop_flatMap hpi, hstream]
    exact (List.drop_left' (by simp only [List.length_append]; omega)).symm
  have hback : rest.drop d = (cs.drop j).flatMap encode := by
    rw [← drop_flatMap hpj, ← List.drop_drop, drop_flatMap hpi, hfront]
  have hmiddle : cs.drop k = (cs.drop k).take (i - k) ++ cs.drop i := by
    have hlast : (cs.drop k).drop (i - k) = cs.drop i := by
      rw [List.drop_drop, Nat.add_sub_cancel' hki]
    rw [← hlast, List.take_append_drop]
  have hout : out = (kept ++ (cs.drop k).take (i - k)).flatMap encode := by
    rw [hfront, hmiddle, List.flatMap_append, ← List.append_assoc] at hsplit
    rw [List.flatMap_append]
    exact List.append_cancel_right hsplit
  refine ⟨j, kept ++ (cs.drop k).take (i - k), hj, ?_,
    Nat.le_of_eq (congrArg List.length hout).symm, ?_⟩
  · have htake : cs.take i = cs.take k ++ (cs.drop k).take (i - k) := by
      rw [← List.take_add, Nat.add_sub_cancel' hki]
    have hprefix : (cs.take i).Sublist (cs.take j) := (List.take_prefix_take_left hij).sublist
    exact (htake ▸ hkept.append_right _ : _).trans hprefix
  · rw [List.flatMap_append, ← hout, hback]

/-- What is read and still to be read are whole items, in order. -/
theorem whole (h : Reads encode cs out rest) :
    ∃ kept, List.Sublist kept cs ∧ out ++ rest = kept.flatMap encode := by
  obtain ⟨k, kept, -, hkept, -, hsplit⟩ := h
  refine ⟨kept ++ cs.drop k, ?_, hsplit⟩
  have happend := hkept.append_right (cs.drop k)
  rwa [List.take_append_drop] at happend

end Reads

end

end Streams
