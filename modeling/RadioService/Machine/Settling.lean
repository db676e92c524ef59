import Mathlib.Algebra.Order.Ring.Basic
import Mathlib.Data.List.Chain
import Mathlib.Order.Interval.Set.Defs
import Mathlib.Order.Monotone.Basic
import Mathlib.Tactic.Linarith
import RadioService.Machine.Runs

/-!
# Values that come to rest

A value is changed by a map that reads an input at a time, or left as it is.  A
map that is at rest behind any two of its steps, as soon as the second of them
changes something, changes the value at most twice.  A ladder of thresholds is
such a map on a band that is narrower than the distance of its thresholds.
-/

namespace Machine

variable {σ τ ι : Type*}

/-- How often a value changes on its way from `a` along a list. -/
def changes [DecidableEq σ] : σ → List σ → ℕ
  | _, [] => 0
  | a, b :: l => (if b = a then 0 else 1) + changes b l

/-- From `a` to `b`, nothing happens or `f` reads an input out of `W`. -/
def RestsOrReads (f : σ → ι → σ) (W : ι → Prop) (a b : σ) : Prop := b = a ∨ ∃ i, W i ∧ b = f a i

section

variable [DecidableEq σ]

theorem changes_same (a : σ) (l : List σ) : changes a (a :: l) = changes a l := by
  rw [changes, if_pos rfl, Nat.zero_add]

theorem changes_cons_le (a b : σ) (l : List σ) : changes a (b :: l) ≤ 1 + changes b l := by
  rw [changes]
  split <;> omega

/-- A function of the value changes no more often. -/
theorem changes_map_le [DecidableEq τ] (g : σ → τ) (a : σ) (l : List σ) :
    changes (g a) (l.map g) ≤ changes a l := by
  induction l generalizing a with
  | nil => exact le_rfl
  | cons b l ih =>
      have hrest := ih b
      rw [List.map_cons, changes, changes]
      by_cases hsame : b = a
      · rw [if_pos hsame, if_pos (congrArg g hsame)]
        omega
      · rw [if_neg hsame]
        split <;> omega

variable {f : σ → ι → σ} {W : ι → Prop} {a : σ} {l : List σ}

theorem changes_at_rest (hrest : ∀ i, W i → f a i = a) (hl : (a :: l).IsChain (RestsOrReads f W)) :
    changes a l = 0 := by
  induction l with
  | nil => rfl
  | cons b l ih =>
      obtain ⟨hstep, hl⟩ := List.isChain_cons_cons.mp hl
      have hsame : b = a := by
        rcases hstep with hsame | ⟨i, hi, hread⟩
        · exact hsame
        · exact hread.trans (hrest i hi)
      rw [hsame] at hl ⊢
      rw [changes_same]
      exact ih hl

theorem changes_le_one
    (honce : ∀ i, W i → f a i ≠ a → ∀ i', W i' → f (f a i) i' = f a i)
    (hl : (a :: l).IsChain (RestsOrReads f W)) : changes a l ≤ 1 := by
  induction l with
  | nil => exact Nat.zero_le 1
  | cons b l ih =>
      obtain ⟨hstep, hl⟩ := List.isChain_cons_cons.mp hl
      by_cases hsame : b = a
      · rw [hsame] at hl ⊢
        rw [changes_same]
        exact ih hl
      · rcases hstep with hkept | ⟨i, hi, rfl⟩
        · exact absurd hkept hsame
        · have hzero := changes_at_rest (honce i hi hsame) hl
          have hle := changes_cons_le a (f a i) l
          omega

/-- The first change may lead anywhere; behind it the value changes once. -/
theorem changes_le_two
    (h : ∀ i₀ i i', W i₀ → W i → W i' → f (f a i₀) i ≠ f a i₀ →
      f (f (f a i₀) i) i' = f (f a i₀) i)
    (hl : (a :: l).IsChain (RestsOrReads f W)) : changes a l ≤ 2 := by
  induction l with
  | nil => exact Nat.zero_le 2
  | cons b l ih =>
      obtain ⟨hstep, hl⟩ := List.isChain_cons_cons.mp hl
      rcases hstep with hsame | ⟨i₀, hi₀, rfl⟩
      · rw [hsame] at hl ⊢
        rw [changes_same]
        exact ih hl
      · have hone := changes_le_one (fun i hi hne i' hi' ↦ h i₀ i i' hi₀ hi hi' hne) hl
        have hle := changes_cons_le a (f a i₀) l
        omega

end

/-! ## Along a run -/

variable {ε α : Type*}

/-- The states behind the inputs of a run. -/
def trail (step : Step σ ι ε) : σ → List ι → List σ
  | _, [] => []
  | s, i :: is => (step s i).1 :: trail step (step s i).1 is

theorem Along.trail_chain {step : Step σ ι ε} {p : σ → ι → Prop} {R : τ → τ → Prop} (g : σ → τ)
    (hstep : ∀ s i, p s i → R (g s) (g (step s i).1)) {s : σ} {is : List ι}
    (h : Along step p s is) : (g s :: (trail step s is).map g).IsChain R := by
  induction is generalizing s with
  | nil => exact List.isChain_singleton _
  | cons i is ih =>
      obtain ⟨hp, hrest⟩ := h
      exact List.isChain_cons_cons.mpr ⟨hstep s i hp, ih hrest⟩

/-! ## Ladders -/

variable [Field α] [LinearOrder α]

/-- A ladder of `n` rungs: rung `k` is climbed at `up k` and left below `down k`.  Thresholds
lie `δ` apart, those of one rung and those of the next. -/
structure Ladder (n : ℤ) (δ : α) (up down : ℤ → α) (next : ℤ → α → ℤ) : Prop where
  pos : 0 < δ
  gap : ∀ k, down k + δ ≤ up k
  up_step : ∀ k, up k + δ ≤ up (k + 1)
  down_step : ∀ k, down k + δ ≤ down (k + 1)
  range : ∀ s t, 0 ≤ next s t ∧ next s t ≤ n
  climbs : ∀ s t k, 1 ≤ k → k ≤ n → up k ≤ t → k ≤ next s t
  stays : ∀ s t k, 1 ≤ k → k ≤ s → s ≤ n → down k ≤ t → k ≤ next s t
  falls : ∀ s t k, 1 ≤ k → k ≤ next s t → up k ≤ t ∨ k ≤ s ∧ down k ≤ t

namespace Ladder

variable {n : ℤ} {δ lo hi t₀ t t' : α} {up down : ℤ → α} {next : ℤ → α → ℤ}
  (h : Ladder n δ up down next)

include h

theorem le_next_self {s : ℤ} (hs : s ≤ n) (hdown : 1 ≤ s → down s ≤ t) : s ≤ next s t := by
  by_cases hleast : 1 ≤ s
  · exact h.stays s t s hleast le_rfl hs (hdown hleast)
  · have hrange := (h.range s t).1
    omega

theorem next_le_self {s : ℤ} (hs : 0 ≤ s) (hup : s < n → t < up (s + 1)) : next s t ≤ s := by
  by_contra hover
  have hover : s + 1 ≤ next s t := by omega
  have hrange := (h.range s t).2
  rcases h.falls s t (s + 1) (by omega) hover with hclimb | ⟨hle, -⟩
  · exact absurd hclimb (not_le.mpr (hup (by omega)))
  · omega

variable [IsStrictOrderedRing α]

theorem down_le {j k : ℤ} (hjk : j < k) : down j + δ ≤ down k := by
  have hmono : Monotone down := monotone_int_of_le_succ fun k ↦ by
    have hstep := h.down_step k
    have hpos := h.pos
    linarith
  exact (h.down_step j).trans (hmono hjk)

/-- Whoever is on a rung has read at least its lower threshold. -/
theorem down_le_of_le_next {s k : ℤ} (hk : 1 ≤ k) (hnext : k ≤ next s t) : down k ≤ t := by
  rcases h.falls s t k hk hnext with hup | ⟨-, hdown⟩
  · have hgap := h.gap k
    have hpos := h.pos
    linarith
  · exact hdown

/-- Behind a move up the ladder rests. -/
theorem rests_up (t₀ : α) {a : ℤ} (ht₀ : ∀ k, 1 ≤ k → k ≤ n → up k ≤ t₀ → k ≤ a) (ha : 0 ≤ a)
    (hnear : t' - t₀ < δ) (hnear' : t - t' < δ) (hmoved : a < next a t) :
    next (next a t) t' = next a t := by
  obtain ⟨hleast, hmost⟩ := h.range a t
  -- the rung it has moved to was climbed, not kept
  have hclimbed : up (next a t) ≤ t := by
    rcases h.falls a t (next a t) (by omega) le_rfl with hup | ⟨hle, -⟩
    · exact hup
    · omega
  have hlow : down (next a t) ≤ t' := by
    have hgap := h.gap (next a t)
    linarith
  apply le_antisymm
  · refine h.next_le_self hleast fun hroom ↦ ?_
    by_contra hup
    -- one rung higher, the first reading would have led to this one already
    have hstep := h.up_step (next a t)
    have hfirst := ht₀ (next a t) (by omega) hmost (by linarith)
    omega
  · exact h.le_next_self hmost fun _ ↦ hlow

/-- Behind a move down the ladder rests. -/
theorem rests_down (t₀ : α) {a : ℤ} (ht₀ : 1 ≤ a → down a ≤ t₀) (ha : a ≤ n)
    (hnear : t₀ - t' < δ) (hnear' : t' - t < δ) (hmoved : next a t < a) :
    next (next a t) t' = next a t := by
  obtain ⟨hleast, hmost⟩ := h.range a t
  have hleft : t < down (next a t + 1) := by
    by_contra hstay
    have hkept := h.stays a t (next a t + 1) (by omega) (by omega) ha (not_lt.mp hstay)
    omega
  apply le_antisymm
  · refine h.next_le_self hleast fun _ ↦ ?_
    have hgap := h.gap (next a t + 1)
    linarith
  · refine h.le_next_self hmost fun _ ↦ ?_
    have hstep := h.down_le hmoved
    have hfirst := ht₀ (by omega)
    linarith

/-- On a band narrower than `δ`, a ladder that has moved behind a reading rests. -/
theorem settles (hband : hi - lo < δ) {s : ℤ} (ht₀ : t₀ ∈ Set.Icc lo hi) (ht : t ∈ Set.Icc lo hi)
    (ht' : t' ∈ Set.Icc lo hi) (hmoved : next (next s t₀) t ≠ next s t₀) :
    next (next (next s t₀) t) t' = next (next s t₀) t := by
  obtain ⟨hleast, hmost⟩ := h.range s t₀
  rcases lt_or_gt_of_ne hmoved with hdown | hup
  · refine h.rests_down t₀ (fun hk ↦ h.down_le_of_le_next hk le_rfl) hmost ?_ ?_ hdown
    · linarith [ht₀.2, ht'.1]
    · linarith [ht.1, ht'.2]
  · refine h.rests_up t₀ (fun k hk hkn hup ↦ h.climbs s t₀ k hk hkn hup) hleast ?_ ?_ hup
    · linarith [ht₀.1, ht'.2]
    · linarith [ht.2, ht'.1]

end Ladder

end Machine
