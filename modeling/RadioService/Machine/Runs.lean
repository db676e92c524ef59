import Mathlib.Data.List.Basic
import Mathlib.Data.List.Chain

/-!
# Runs of deterministic machines

A machine reads one input at a time and answers with its next state and a list
of outputs.  This file runs it over a list of inputs, carries invariants and
step conditions along the run, and compares the runs of two machines whose
steps simulate one another.
-/

namespace Machine

variable {σ τ ι κ ε δ : Type*}

/-- One step of a machine: the next state and what it puts out. -/
abbrev Step (σ ι ε : Type*) := σ → ι → σ × List ε

def run (step : Step σ ι ε) : σ → List ι → σ × List ε
  | s, [] => (s, [])
  | s, i :: is => ((run step (step s i).1 is).1, (step s i).2 ++ (run step (step s i).1 is).2)

/-- The condition `p` holds of every input and the state it meets. -/
def Along (step : Step σ ι ε) (p : σ → ι → Prop) : σ → List ι → Prop
  | _, [] => True
  | s, i :: is => p s i ∧ Along step p (step s i).1 is

@[simp] theorem run_nil (step : Step σ ι ε) (s : σ) : run step s [] = (s, []) := rfl

@[simp] theorem run_cons (step : Step σ ι ε) (s : σ) (i : ι) (is : List ι) :
    run step s (i :: is) =
      ((run step (step s i).1 is).1, (step s i).2 ++ (run step (step s i).1 is).2) := rfl

theorem fst_run_nil (step : Step σ ι ε) (s : σ) : (run step s []).1 = s := rfl

theorem fst_run_cons (step : Step σ ι ε) (s : σ) (i : ι) (is : List ι) :
    (run step s (i :: is)).1 = (run step (step s i).1 is).1 := rfl

@[simp] theorem Along_nil (step : Step σ ι ε) (p : σ → ι → Prop) (s : σ) :
    Along step p s [] := trivial

@[simp] theorem Along_cons (step : Step σ ι ε) (p : σ → ι → Prop) (s : σ) (i : ι)
    (is : List ι) :
    Along step p s (i :: is) ↔ p s i ∧ Along step p (step s i).1 is := Iff.rfl

instance decidableAlong {step : Step σ ι ε} {p : σ → ι → Prop} [∀ s i, Decidable (p s i)] :
    ∀ (s : σ) (is : List ι), Decidable (Along step p s is)
  | _, [] => isTrue trivial
  | s, i :: is =>
    have : Decidable (Along step p (step s i).1 is) := decidableAlong _ is
    inferInstanceAs (Decidable (_ ∧ _))

theorem run_append (step : Step σ ι ε) (s : σ) (xs ys : List ι) :
    run step s (xs ++ ys) =
      ((run step (run step s xs).1 ys).1,
        (run step s xs).2 ++ (run step (run step s xs).1 ys).2) := by
  induction xs generalizing s with
  | nil => simp
  | cons x xs ih => simp [ih, List.append_assoc]

theorem run_trans {step : Step σ ι ε} {s t u : σ} {xs ys : List ι} {out out' : List ε}
    (h : run step s xs = (t, out)) (h' : run step t ys = (u, out')) :
    run step s (xs ++ ys) = (u, out ++ out') := by
  simp [run_append, h, h']

theorem run_step {step : Step σ ι ε} {s t u : σ} {i : ι} {is : List ι} {out out' : List ε}
    (h : step s i = (t, out)) (h' : run step t is = (u, out')) :
    run step s (i :: is) = (u, out ++ out') := by
  simp [h, h']

theorem Along_append (step : Step σ ι ε) (p : σ → ι → Prop) (s : σ) (xs ys : List ι) :
    Along step p s (xs ++ ys) ↔
      Along step p s xs ∧ Along step p (run step s xs).1 ys := by
  induction xs generalizing s with
  | nil => simp
  | cons x xs ih => simp [ih, and_assoc]

theorem Along.of_forall {step : Step σ ι ε} {p : σ → ι → Prop} {is : List ι}
    (h : ∀ i ∈ is, ∀ s, p s i) (s : σ) : Along step p s is := by
  induction is generalizing s with
  | nil => trivial
  | cons i is ih =>
      exact ⟨h i (by simp) s, ih (fun j hj ↦ h j (List.mem_cons_of_mem i hj)) _⟩

theorem Along_and {step : Step σ ι ε} {p q : σ → ι → Prop} {s : σ} {is : List ι} :
    Along step (fun s i ↦ p s i ∧ q s i) s is ↔ Along step p s is ∧ Along step q s is := by
  induction is generalizing s with
  | nil => simp
  | cons i is ih =>
      rw [Along_cons, Along_cons, Along_cons, ih]
      exact and_and_and_comm

/-- A condition along a run, read off at every input of the list. -/
theorem Along_iff_forall {step : Step σ ι ε} {p : σ → ι → Prop} {s : σ} {is : List ι} :
    Along step p s is ↔
      ∀ xs i ys, is = xs ++ i :: ys → p (run step s xs).1 i := by
  constructor
  · rintro h xs i ys rfl
    exact ((Along_append step p s xs (i :: ys)).mp h).2.1
  · intro h
    induction is generalizing s with
    | nil => trivial
    | cons i is ih =>
        refine ⟨h [] i is rfl, ih fun xs j ys hsplit ↦ ?_⟩
        exact h (i :: xs) j ys (by rw [hsplit]; rfl)

/-- Two machines whose steps agree wherever a condition holds. -/
theorem Along.congr_machine (step : Step σ ι ε) (step' : Step σ ι δ) {p : σ → ι → Prop}
    (h : ∀ s i, p s i → (step s i).1 = (step' s i).1) {s : σ} {is : List ι} :
    Along step p s is ↔ Along step' p s is := by
  induction is generalizing s with
  | nil => simp
  | cons i is ih =>
      rw [Along_cons, Along_cons]
      refine and_congr_right fun hp ↦ ?_
      rw [h s i hp, ih]

/-- A condition kept by every step whose input meets `c` holds of the state
reached, in every run whose inputs all meet `c`. -/
theorem Along.invariant {step : Step σ ι ε} {c : σ → ι → Prop} {I : σ → Prop}
    (hstep : ∀ s i, I s → c s i → I (step s i).1) {s : σ} {is : List ι}
    (hs : I s) (hc : Along step c s is) : I (run step s is).1 := by
  induction is generalizing s with
  | nil => exact hs
  | cons i is ih => exact ih (hstep s i hs hc.1) hc.2

/-- What every step promises from an invariant holds at every step of a run. -/
theorem Along.of_invariant {step : Step σ ι ε} {c p : σ → ι → Prop} {I : σ → Prop}
    (hstep : ∀ s i, I s → c s i → I (step s i).1) (hp : ∀ s i, I s → c s i → p s i)
    {s : σ} {is : List ι} (hs : I s) (hc : Along step c s is) : Along step p s is := by
  induction is generalizing s with
  | nil => trivial
  | cons i is ih => exact ⟨hp s i hs hc.1, ih (hstep s i hs hc.1) hc.2⟩

/-- Two step conditions that agree wherever an invariant and a third condition
hold, the second of which keeps the invariant, hold along the same runs. -/
theorem Along.congr_under {step : Step σ ι ε} {c p q : σ → ι → Prop} {I : σ → Prop}
    (hpq : ∀ s i, I s → c s i → (p s i ↔ q s i))
    (hstep : ∀ s i, I s → c s i → q s i → I (step s i).1) {s : σ} {is : List ι}
    (hs : I s) (hc : Along step c s is) : Along step p s is ↔ Along step q s is := by
  induction is generalizing s with
  | nil => simp
  | cons i is ih =>
      rw [Along_cons, Along_cons, hpq s i hs hc.1]
      exact and_congr_right fun hq ↦ ih (hstep s i hs hc.1 hq) hc.2

theorem Along.congr {step : Step σ ι ε} {p q : σ → ι → Prop} {I : σ → Prop}
    (hpq : ∀ s i, I s → (p s i ↔ q s i)) (hstep : ∀ s i, I s → q s i → I (step s i).1)
    {s : σ} {is : List ι} (hs : I s) : Along step p s is ↔ Along step q s is :=
  Along.congr_under (c := fun _ _ ↦ True) (fun s i hs _ ↦ hpq s i hs)
    (fun s i hs _ ↦ hstep s i hs) hs (Along.of_forall (fun _ _ _ ↦ trivial) s)

/-- An invariant of the state and of everything put out so far. -/
theorem run_history {step : Step σ ι ε} {I : σ → List ε → Prop}
    (hstep : ∀ s out i, I s out → I (step s i).1 (out ++ (step s i).2)) {s : σ}
    {out : List ε} {is : List ι} (h : I s out) :
    I (run step s is).1 (out ++ (run step s is).2) := by
  induction is generalizing s out with
  | nil => simpa using h
  | cons i is ih =>
      have hrest := ih (hstep s out i h)
      rwa [List.append_assoc] at hrest

/-- The same along a run whose inputs meet `c`. -/
theorem Along.history {step : Step σ ι ε} {c : σ → ι → Prop} {I : σ → List ε → Prop}
    (hstep : ∀ s out i, I s out → c s i → I (step s i).1 (out ++ (step s i).2)) {s : σ}
    {out : List ε} {is : List ι} (h : I s out) (hc : Along step c s is) :
    I (run step s is).1 (out ++ (run step s is).2) := by
  induction is generalizing s out with
  | nil => simpa using h
  | cons i is ih =>
      have hrest := ih (hstep s out i h hc.1) hc.2
      rwa [List.append_assoc] at hrest

/-- A property of the history that each step keeps exactly if it meets `c`. -/
theorem run_history_iff {step : Step σ ι ε} (is : List ι) {I P : σ → List ε → Prop}
    {c : σ → ι → Prop}
    (hstep : ∀ s out i, I s out → I (step s i).1 (out ++ (step s i).2))
    (hkeep : ∀ s out i, I s out → (P (step s i).1 (out ++ (step s i).2) ↔ P s out ∧ c s i))
    {s : σ} {out : List ε} (h : I s out) :
    P (run step s is).1 (out ++ (run step s is).2) ↔ P s out ∧ Along step c s is := by
  induction is generalizing s out with
  | nil => simp
  | cons i is ih =>
      have hrest := ih (hstep s out i h)
      rw [List.append_assoc, hkeep s out i h, and_assoc] at hrest
      exact hrest

/-- Every output of a run was put out by one of its steps. -/
theorem forall_mem_run {step : Step σ ι ε} {P : ε → Prop} {s : σ} {is : List ι} :
    (∀ e ∈ (run step s is).2, P e) ↔
      Along step (fun s i ↦ ∀ e ∈ (step s i).2, P e) s is := by
  induction is generalizing s with
  | nil => simp
  | cons i is ih =>
      rw [Along_cons, ← ih]
      simp only [run_cons, List.mem_append, or_imp, forall_and]

/-- A machine that collects inputs until it has all of `zs` and answers then:
`J` says what it has collected, `D` where it ends. -/
theorem run_collects {step : Step σ ι ε} (J : σ → List ι → Prop) {D : σ → Prop}
    (zs : List ι) {out : List ε}
    (hmore : ∀ s xs x, J s xs → (xs ++ [x]).length < zs.length →
      (step s x).2 = [] ∧ J (step s x).1 (xs ++ [x]))
    (hlast : ∀ s xs x, J s xs → xs ++ [x] = zs →
      (step s x).2 = out ∧ D (step s x).1)
    {s : σ} (xs : List ι) {ys : List ι} (hJ : J s xs) (hsplit : xs ++ ys = zs) (hys : ys ≠ []) :
    (run step s ys).2 = out ∧ D (run step s ys).1 := by
  induction ys generalizing s xs with
  | nil => exact absurd rfl hys
  | cons y ys ih =>
      cases ys with
      | nil =>
          obtain ⟨hout, hD⟩ := hlast s xs y hJ hsplit
          exact ⟨by simpa using hout, hD⟩
      | cons y' ys =>
          have hlen : (xs ++ [y]).length < zs.length := by
            rw [← hsplit]
            simp
          obtain ⟨hout, hnext⟩ := hmore s xs y hJ hlen
          obtain ⟨hout', hD⟩ := ih (xs ++ [y]) hnext (by simpa using hsplit) (by simp)
          refine ⟨?_, hD⟩
          rw [run_cons, hout]
          exact hout'

/-- A simulation: where the inputs meet `c`, related states answer an input, and
the inputs it stands for, with the same visible outputs. -/
theorem run_refines (step : Step σ ι ε) (step' : Step τ κ δ) {R : σ → τ → Prop}
    {c : σ → ι → Prop} (view : ε → Option δ) (parts : ι → List κ)
    (hstep : ∀ s t i, R s t → c s i →
      R (step s i).1 (run step' t (parts i)).1 ∧
        (step s i).2.filterMap view = (run step' t (parts i)).2)
    {s : σ} {t : τ} {is : List ι} (hR : R s t) (hc : Along step c s is) :
    R (run step s is).1 (run step' t (is.flatMap parts)).1 ∧
      (run step s is).2.filterMap view = (run step' t (is.flatMap parts)).2 := by
  induction is generalizing s t with
  | nil => exact ⟨hR, rfl⟩
  | cons i is ih =>
      obtain ⟨hnext, hout⟩ := hstep s t i hR hc.1
      obtain ⟨hfinal, hrest⟩ := ih hnext hc.2
      rw [List.flatMap_cons, run_append]
      refine ⟨hfinal, ?_⟩
      simp only [run_cons, List.filterMap_append, hout, hrest]

/-- The case of one input for one input. -/
theorem run_simulates (step : Step σ ι ε) (step' : Step τ κ δ) {R : σ → τ → Prop}
    {c : σ → ι → Prop} (view : ε → Option δ) (tr : ι → κ)
    (hstep : ∀ s t i, R s t → c s i →
      R (step s i).1 (step' t (tr i)).1 ∧
        (step s i).2.filterMap view = (step' t (tr i)).2)
    {s : σ} {t : τ} {is : List ι} (hR : R s t) (hc : Along step c s is) :
    R (run step s is).1 (run step' t (is.map tr)).1 ∧
      (run step s is).2.filterMap view = (run step' t (is.map tr)).2 := by
  have h := run_refines step step' (c := c) view (fun i ↦ [tr i])
    (fun s t i hR hc ↦ by simpa using hstep s t i hR hc) hR hc
  rwa [← List.map_eq_flatMap] at h

theorem run_view {step : Step σ ι ε} {step' : Step σ ι δ} {view : ε → Option δ}
    (h : ∀ s i, step' s i = ((step s i).1, (step s i).2.filterMap view)) (s : σ)
    (is : List ι) :
    run step' s is = ((run step s is).1, (run step s is).2.filterMap view) := by
  induction is generalizing s with
  | nil => rfl
  | cons i is ih => simp [h, ih]

/-- A machine whose outputs stand for lists of outputs of another. -/
theorem run_spelled {step : Step σ ι ε} {step' : Step σ ι δ} {spell : ε → List δ}
    (h : ∀ s i, step' s i = ((step s i).1, (step s i).2.flatMap spell)) (s : σ) (is : List ι) :
    run step' s is = ((run step s is).1, (run step s is).2.flatMap spell) := by
  induction is generalizing s with
  | nil => rfl
  | cons i is ih => simp [h, ih]

theorem run_map (step : Step σ κ ε) (tr : ι → κ) (s : σ) (is : List ι) :
    run step s (is.map tr) = run (fun s i ↦ step s (tr i)) s is := by
  induction is generalizing s with
  | nil => rfl
  | cons i is ih => simp [ih]

/-! ## Two machines on the same inputs -/

/-- Both machines fed with every input, their answers side by side. -/
def beside (step : Step σ ι ε) (step' : Step τ ι δ) : Step (σ × τ) ι (List ε × List δ) :=
  fun x i ↦ (((step x.1 i).1, (step' x.2 i).1), [((step x.1 i).2, (step' x.2 i).2)])

/-- Machines whose answers look alike at every input put out alike. -/
theorem Along.outputs_eq {step : Step σ ι ε} {step' : Step τ ι δ} {view : δ → Option ε}
    {s : σ} {t : τ} {is : List ι}
    (h : Along (beside step step')
      (fun x i ↦ (step x.1 i).2 = (step' x.2 i).2.filterMap view) (s, t) is) :
    (run step s is).2 = (run step' t is).2.filterMap view := by
  induction is generalizing s t with
  | nil => rfl
  | cons i is ih =>
      rw [run_cons, run_cons, List.filterMap_append, h.1, ih h.2]

end Machine
