import Mathlib.Algebra.CharP.Two
import Mathlib.Algebra.Field.ZMod
import Mathlib.RingTheory.AdjoinRoot

/-!
# Reflected cyclic redundancy checks

A reflected register of `w` bits stands for a polynomial over GF(2) of degree less than
`w`: bit 0 is the highest coefficient.  Shifting the register down multiplies by `X`
modulo the generator, and taking a word in from below adds it to the message.  What a
register holds in the end is a remainder of the message.
-/

open Polynomial Finset

namespace ReflectedCrc

/-! ## Bits as coefficients -/

/-- The first of `n` bits is the highest coefficient. -/
noncomputable def ofBits (n : ℕ) (f : ℕ → Bool) : (ZMod 2)[X] :=
  ∑ i ∈ range n, if f i then X ^ (n - 1 - i) else 0

theorem coeff_ofBits (n : ℕ) (f : ℕ → Bool) (k : ℕ) :
    (ofBits n f).coeff k = if k < n ∧ f (n - 1 - k) = true then 1 else 0 := by
  have hterm : ∀ i ∈ range n, (if f i then (X : (ZMod 2)[X]) ^ (n - 1 - i) else 0).coeff k =
      if i = n - 1 - k ∧ k < n ∧ f (n - 1 - k) = true then 1 else 0 := by
    intro i hi
    have hin := mem_range.mp hi
    by_cases hik : i = n - 1 - k ∧ k < n
    · obtain ⟨rfl, hk⟩ := hik
      have hsub : n - 1 - (n - 1 - k) = k := by omega
      cases f (n - 1 - k) <;> simp [hk, hsub]
    · have hne : k ≠ n - 1 - i := by omega
      have hno : ¬(i = n - 1 - k ∧ k < n ∧ f (n - 1 - k) = true) := fun h ↦ hik ⟨h.1, h.2.1⟩
      rw [if_neg hno]
      cases f i <;> simp [coeff_X_pow, hne]
  rw [ofBits, finsetSum_coeff, sum_congr rfl hterm]
  by_cases hk : k < n ∧ f (n - 1 - k) = true
  · have hmem : n - 1 - k ∈ range n := mem_range.mpr (by omega)
    simp [hk]
    omega
  · simp [hk]

theorem ofBits_congr {n : ℕ} {f g : ℕ → Bool} (h : ∀ i < n, f i = g i) :
    ofBits n f = ofBits n g :=
  sum_congr rfl fun i hi ↦ by rw [h i (mem_range.mp hi)]

theorem ofBits_false (n : ℕ) : ofBits n (fun _ ↦ false) = 0 := by
  simp [ofBits]

theorem degree_ofBits_lt (n : ℕ) (f : ℕ → Bool) : (ofBits n f).degree < n := by
  refine (degree_lt_iff_coeff_zero _ _).mpr fun k hk ↦ ?_
  rw [coeff_ofBits, if_neg fun h ↦ absurd h.1 (not_lt.mpr hk)]

theorem ofBits_eq_zero {n : ℕ} {f : ℕ → Bool} (h : ofBits n f = 0) {i : ℕ} (hi : i < n) :
    f i = false := by
  have hcoeff := congrArg (coeff · (n - 1 - i)) h
  simp only [coeff_ofBits, coeff_zero] at hcoeff
  have hsub : n - 1 - (n - 1 - i) = i := by omega
  by_contra htrue
  rw [hsub, if_pos ⟨by omega, Bool.not_eq_false _ ▸ htrue⟩] at hcoeff
  exact one_ne_zero hcoeff

/-- Exclusive or is addition. -/
theorem ofBits_xor (n : ℕ) (f g : ℕ → Bool) :
    ofBits n (fun i ↦ f i ^^ g i) = ofBits n f + ofBits n g := by
  rw [ofBits, ofBits, ofBits, ← sum_add_distrib]
  refine sum_congr rfl fun i _ ↦ ?_
  cases f i <;> cases g i <;> simp [CharTwo.add_self_eq_zero]

/-- The first `n` bits come above the other `m`. -/
theorem ofBits_add (n m : ℕ) (f : ℕ → Bool) :
    ofBits (n + m) f = ofBits n f * X ^ m + ofBits m fun i ↦ f (n + i) := by
  rw [ofBits, sum_range_add, ofBits, ofBits, sum_mul]
  refine congrArg₂ (· + ·) (sum_congr rfl fun i hi ↦ ?_) (sum_congr rfl fun i _ ↦ ?_)
  · have hin := mem_range.mp hi
    rw [ite_mul, zero_mul, ← pow_add]
    exact if_congr Iff.rfl (congrArg _ (by omega)) rfl
  · exact if_congr Iff.rfl (congrArg _ (by omega)) rfl

/-! ## Registers -/

section

variable {v w : ℕ}

noncomputable def poly (x : BitVec w) : (ZMod 2)[X] := ofBits w x.getLsbD

theorem poly_xor (x y : BitVec w) : poly (x ^^^ y) = poly x + poly y := by
  rw [poly, poly, poly, ← ofBits_xor]
  exact ofBits_congr fun i _ ↦ BitVec.getLsbD_xor

theorem degree_poly_lt (x : BitVec w) : (poly x).degree < w := degree_ofBits_lt w _

/-- A shift down takes bit 0 out at the top. -/
theorem X_mul_poly (x : BitVec w) :
    X * poly x = poly (x >>> 1) + if x.getLsbD 0 then X ^ w else 0 := by
  cases w with
  | zero => simp [poly, ofBits]
  | succ w =>
      have hfirst : poly x =
          (if x.getLsbD 0 then X ^ w else 0) + ofBits w fun i ↦ x.getLsbD (1 + i) := by
        refine (congrArg (ofBits · x.getLsbD) (add_comm w 1)).trans ((ofBits_add 1 w _).trans ?_)
        rw [ofBits, sum_range_one, ite_mul, zero_mul, Nat.sub_self, pow_zero, one_mul]
      have hshift : poly (x >>> 1) = (ofBits w fun i ↦ x.getLsbD (1 + i)) * X := by
        have hbits : ∀ i, (x >>> 1).getLsbD i = x.getLsbD (1 + i) := fun i ↦ by simp
        have hout : (ofBits 1 fun i ↦ x.getLsbD (1 + (w + i))) = 0 := by
          rw [← ofBits_false 1]
          exact ofBits_congr fun i _ ↦ BitVec.getLsbD_of_ge x _ (by omega)
        rw [poly, ofBits_add, funext hbits, hout, pow_one, add_zero]
      rw [hfirst, hshift, mul_add, mul_ite, mul_zero, ← pow_succ']
      ring

/-- One shift of a register with the generator `X ^ w + poly g`. -/
def shift (g x : BitVec w) : BitVec w := (x >>> 1) ^^^ if x.getLsbD 0 then g else 0

noncomputable def generator (g : BitVec w) : (ZMod 2)[X] := X ^ w + poly g

theorem monic_generator (g : BitVec w) : (generator g).Monic := monic_X_pow_add (degree_poly_lt g)

theorem degree_generator (g : BitVec w) : (generator g).degree = w := by
  have hlow := (degree_poly_lt g).trans_eq (degree_X_pow (R := ZMod 2) w).symm
  rw [generator, degree_add_eq_left_of_degree_lt hlow, degree_X_pow]

/-- A shift multiplies by `X` and takes the generator off if the product gets too high. -/
theorem poly_shift (g x : BitVec w) :
    X * poly x = poly (shift g x) + if x.getLsbD 0 then generator g else 0 := by
  rw [X_mul_poly, shift, poly_xor]
  cases x.getLsbD 0 with
  | false =>
      have hzero : poly (0 : BitVec w) = 0 := by
        rw [poly, ← ofBits_false w]
        exact ofBits_congr fun i _ ↦ BitVec.getLsbD_zero
      rw [if_neg Bool.false_ne_true, if_neg Bool.false_ne_true, if_neg Bool.false_ne_true, hzero,
        add_zero, add_zero]
  | true =>
      have hcancel : poly g + poly g = 0 := CharTwo.add_self_eq_zero _
      rw [if_pos rfl, if_pos rfl, if_pos rfl, generator]
      linear_combination -hcancel

/-- The class of a polynomial modulo the generator. -/
noncomputable abbrev cls (g : BitVec w) : (ZMod 2)[X] →+* AdjoinRoot (generator g) :=
  AdjoinRoot.mk (generator g)

theorem cls_shift (g x : BitVec w) : cls g (poly (shift g x)) = cls g (X * poly x) := by
  rw [poly_shift g, map_add]
  split <;> simp

theorem cls_shifts (g x : BitVec w) (n : ℕ) :
    cls g (poly ((shift g)^[n] x)) = cls g (X ^ n * poly x) := by
  induction n with
  | zero => simp
  | succ n ih =>
      rw [Function.iterate_succ_apply', cls_shift, map_mul, ih, ← map_mul, ← mul_assoc, ← pow_succ']

/-! ## Messages -/

/-- Take the bits of a word in, the lowest first. -/
def absorb (g x : BitVec w) (d : BitVec v) : BitVec w := (shift g)^[v] (x ^^^ d.setWidth w)

theorem poly_setWidth (hvw : v ≤ w) (d : BitVec v) :
    poly (d.setWidth w) = poly d * X ^ (w - v) := by
  obtain ⟨u, rfl⟩ := Nat.exists_eq_add_of_le hvw
  have hlow : (ofBits v fun i ↦ (d.setWidth (v + u)).getLsbD i) = poly d :=
    ofBits_congr fun i hi ↦ by simp [Nat.lt_add_right u hi]
  have hhigh : (ofBits u fun i ↦ (d.setWidth (v + u)).getLsbD (v + i)) = 0 := by
    rw [← ofBits_false u]
    exact ofBits_congr fun i _ ↦ by simp [BitVec.getLsbD_setWidth]
  rw [poly, ofBits_add, hlow, hhigh, add_zero, Nat.add_sub_cancel_left]

/-- Bit `p` of a message, its words one behind the other. -/
def bitAt (ds : List (BitVec v)) (p : ℕ) : Bool := (ds.getD (p / v) 0).getLsbD (p % v)

/-- The message as a polynomial: its first bit is the highest coefficient. -/
noncomputable def message (ds : List (BitVec v)) : (ZMod 2)[X] := ofBits (v * ds.length) (bitAt ds)

theorem bitAt_cons_lt (d : BitVec v) (ds : List (BitVec v)) {p : ℕ} (hp : p < v) :
    bitAt (d :: ds) p = d.getLsbD p := by
  rw [bitAt, Nat.div_eq_of_lt hp, Nat.mod_eq_of_lt hp, List.getD_cons_zero]

theorem bitAt_cons_add (d : BitVec v) (ds : List (BitVec v)) (hv : 0 < v) (p : ℕ) :
    bitAt (d :: ds) (v + p) = bitAt ds p := by
  rw [bitAt, bitAt, Nat.add_div_left _ hv, Nat.add_mod_left, List.getD_cons_succ]

theorem message_cons (hv : 0 < v) (d : BitVec v) (ds : List (BitVec v)) :
    message (d :: ds) = poly d * X ^ (v * ds.length) + message ds := by
  rw [message, List.length_cons, Nat.mul_succ, add_comm, ofBits_add]
  exact congrArg₂ (· * X ^ (v * ds.length) + ·) (ofBits_congr fun p hp ↦ bitAt_cons_lt d ds hp)
    (ofBits_congr fun p _ ↦ bitAt_cons_add d ds hv p)

theorem cls_absorb (hvw : v ≤ w) (g x : BitVec w) (d : BitVec v) :
    cls g (poly (absorb g x d)) = cls g (X ^ v * poly x + X ^ w * poly d) := by
  have hpow : (X : (ZMod 2)[X]) ^ v * X ^ (w - v) = X ^ w := by
    rw [← pow_add, Nat.add_sub_cancel' hvw]
  rw [absorb, cls_shifts, poly_xor, poly_setWidth hvw]
  refine congrArg (cls g) ?_
  linear_combination poly d * hpow

/-- What the register holds, modulo the generator. -/
theorem cls_foldl (hv : 0 < v) (hvw : v ≤ w) (g x : BitVec w) (ds : List (BitVec v)) :
    cls g (poly (ds.foldl (absorb g) x)) =
      cls g (X ^ (v * ds.length) * poly x + X ^ w * message ds) := by
  induction ds generalizing x with
  | nil => simp [message, ofBits]
  | cons d ds ih =>
      rw [List.foldl_cons, ih, map_add, map_mul, cls_absorb hvw, ← map_mul, ← map_add,
        message_cons hv, List.length_cons, Nat.mul_succ, pow_add]
      exact congrArg (cls g) (by ring)

/-- The register holds the remainder of the message behind the preset. -/
theorem poly_foldl (hv : 0 < v) (hvw : v ≤ w) (g x : BitVec w) (ds : List (BitVec v)) :
    poly (ds.foldl (absorb g) x) =
      (X ^ (v * ds.length) * poly x + X ^ w * message ds) %ₘ generator g := by
  have hlow : (poly (ds.foldl (absorb g) x)).degree < (generator g).degree := by
    rw [degree_generator]
    exact degree_poly_lt _
  rw [← (modByMonic_eq_self_iff (monic_generator g)).mpr hlow]
  exact modByMonic_eq_of_dvd_sub (monic_generator g) (AdjoinRoot.mk_eq_mk.mp
    (cls_foldl hv hvw g x ds))

/-! ## Bursts of errors -/

theorem exists_bitAt_ne {ds es : List (BitVec v)} (hlen : ds.length = es.length) (hne : ds ≠ es) :
    ∃ p < v * ds.length, bitAt ds p ≠ bitAt es p := by
  by_contra hsame
  push Not at hsame
  refine hne (List.ext_getElem hlen fun j hj hj' ↦ BitVec.eq_of_getLsbD_eq fun i hi ↦ ?_)
  have hp : v * j + i < v * ds.length :=
    lt_of_lt_of_le (Nat.add_lt_add_left hi _) (by
      rw [← Nat.mul_succ]
      exact Nat.mul_le_mul_left v hj)
  have hbit := hsame _ hp
  rw [bitAt, bitAt, Nat.mul_add_div (Nat.zero_lt_of_lt hi), Nat.div_eq_of_lt hi, add_zero,
    Nat.mul_add_mod, Nat.mod_eq_of_lt hi] at hbit
  simpa [List.getD_eq_getElem?_getD, hj, hj'] using hbit

/-- Without a bit from `w` on the bits are a short polynomial moved up. -/
theorem ofBits_short (u : ℕ) {f : ℕ → Bool} (hf : ∀ i, w ≤ i → f i = false) :
    ∃ (p : (ZMod 2)[X]) (s : ℕ), ofBits u f = p * X ^ s ∧ p.degree < w := by
  rcases le_total u w with hu | hu
  · refine ⟨ofBits u f, 0, by rw [pow_zero, mul_one], ?_⟩
    exact (degree_ofBits_lt u f).trans_le (Nat.cast_le.mpr hu)
  · obtain ⟨s, rfl⟩ := Nat.exists_eq_add_of_le hu
    have hhigh : (ofBits s fun i ↦ f (w + i)) = 0 := by
      rw [← ofBits_false s]
      exact ofBits_congr fun i _ ↦ hf _ (Nat.le_add_right w i)
    exact ⟨ofBits w f, s, by rw [ofBits_add, hhigh, add_zero], degree_ofBits_lt w f⟩

/-- Two messages of one length whose different bits lie within `w` places leave different
registers, if the constant term of the generator is not zero. -/
theorem foldl_ne_of_burst (hv : 0 < v) (hvw : v ≤ w) {g : BitVec w}
    (hg : (generator g).coeff 0 ≠ 0) (x : BitVec w) {ds es : List (BitVec v)}
    (hlen : ds.length = es.length) (hne : ds ≠ es) {k : ℕ}
    (hburst : ∀ p, bitAt ds p ≠ bitAt es p → k ≤ p ∧ p < k + w) :
    ds.foldl (absorb g) x ≠ es.foldl (absorb g) x := by
  intro heq
  obtain ⟨q, hq, hdiff⟩ := exists_bitAt_ne hlen hne
  obtain ⟨u, hu⟩ := Nat.exists_eq_add_of_le (((hburst q hdiff).1.trans_lt hq).le)
  let f : ℕ → Bool := fun i ↦ bitAt ds (k + i) ^^ bitAt es (k + i)
  have hsame : ∀ p, ¬(k ≤ p ∧ p < k + w) → (bitAt ds p ^^ bitAt es p) = false := fun p hp ↦ by
    simpa using not_imp_comm.mp (hburst p) hp
  have herror : message ds + message es = ofBits u f := by
    have hlow : (ofBits k fun p ↦ bitAt ds p ^^ bitAt es p) = 0 := by
      rw [← ofBits_false k]
      exact ofBits_congr fun p hp ↦ hsame p (by omega)
    rw [message, message, ← hlen, ← ofBits_xor, hu, ofBits_add, hlow, zero_mul, zero_add]
  obtain ⟨e, s, he, hdeg⟩ := ofBits_short (w := w) u fun i hi ↦ hsame (k + i) (by omega)
  have hdvd : generator g ∣ X ^ w * (e * X ^ s) := by
    have hcls := congrArg (fun r ↦ cls g (poly r)) heq
    simp only [cls_foldl hv hvw, hlen] at hcls
    rw [← he, ← herror]
    have hsub := AdjoinRoot.mk_eq_mk.mp hcls
    rwa [add_sub_add_left_eq_sub, ← mul_sub, CharTwo.sub_eq_add] at hsub
  have hcoprime : IsCoprime (generator g) X :=
    ((irreducible_X.coprime_iff_not_dvd).mpr fun h ↦ hg (X_dvd_iff.mp h)).symm
  have hshort : generator g ∣ e :=
    hcoprime.pow_right.dvd_of_dvd_mul_right (hcoprime.pow_right.dvd_of_dvd_mul_left hdvd)
  have hzero : e = 0 := eq_zero_of_dvd_of_degree_lt hshort (hdeg.trans_eq (degree_generator g).symm)
  rw [hzero, zero_mul] at he
  obtain ⟨i, rfl⟩ := Nat.exists_eq_add_of_le (hburst q hdiff).1
  have hbit := ofBits_eq_zero he (show i < u by omega)
  exact hdiff (by simpa using hbit)

end

end ReflectedCrc
