import RadioService.Machine.Traced

/-!
# Two runs side by side

A program mirrors another along a map of states: started in the image of a state it
issues the events the other issues from that state, ends in the image of the state the
other ends in, and returns a related value.
-/

namespace Traced

variable {σ τ ε α β γ δ : Type}

/-- From `φ s`, `m'` does what `m` does from `s`. -/
def Mirrors (φ : σ → τ) (R : α → β → Prop) (m : Traced σ ε α) (m' : Traced τ ε β) : Prop :=
  ∀ s, R (m.run s).val (m'.run (φ s)).val ∧ (m'.run (φ s)).state = φ (m.run s).state ∧
    (m'.run (φ s)).events = (m.run s).events

namespace Mirrors

variable {φ : σ → τ} {R : α → β → Prop}

theorem pure {a : α} {b : β} (h : R a b) :
    Mirrors (ε := ε) φ R (Pure.pure a) (Pure.pure b) := fun _ ↦ ⟨h, rfl, rfl⟩

theorem bind {P : γ → δ → Prop} {m : Traced σ ε γ} {m' : Traced τ ε δ} {g : γ → Traced σ ε α}
    {g' : δ → Traced τ ε β} (hm : Mirrors φ P m m')
    (hg : ∀ c d, P c d → Mirrors φ R (g c) (g' d)) : Mirrors φ R (m >>= g) (m' >>= g') := by
  intro s
  obtain ⟨hval, hstate, hevents⟩ := hm s
  obtain ⟨hval', hstate', hevents'⟩ := hg _ _ hval (m.run s).state
  rw [run_bind, run_bind, Outcome.prepend_val, Outcome.prepend_val, Outcome.prepend_state,
    Outcome.prepend_state, Outcome.events_prepend, Outcome.events_prepend, hstate]
  exact ⟨hval', hstate', congrArg₂ (· ++ ·) hevents hevents'⟩

theorem andThen {m : Traced σ ε γ} {m' : Traced τ ε γ} {g : γ → Traced σ ε α}
    {g' : γ → Traced τ ε β} (hm : Mirrors φ Eq m m') (hg : ∀ c, Mirrors φ R (g c) (g' c)) :
    Mirrors φ R (m >>= g) (m' >>= g') := by
  refine bind hm ?_
  rintro c _ rfl
  exact hg c

theorem reading {g : σ → Traced σ ε α} {g' : τ → Traced τ ε β}
    (h : ∀ s, Mirrors φ R (g s) (g' (φ s))) : Mirrors φ R (read >>= g) (read >>= g') :=
  fun s ↦ h s s

theorem update {f : σ → σ} {f' : τ → τ} (h : ∀ s, f' (φ s) = φ (f s)) :
    Mirrors (ε := ε) φ Eq (Traced.update f) (Traced.update f') := fun s ↦ ⟨rfl, h s, rfl⟩

theorem updating {f : σ → σ} {f' : τ → τ} {m : Traced σ ε α} {m' : Traced τ ε β}
    (h : ∀ s, f' (φ s) = φ (f s)) (hm : Mirrors φ R m m') :
    Mirrors φ R (Traced.update f >>= fun _ ↦ m) (Traced.update f' >>= fun _ ↦ m') :=
  andThen (update h) fun _ ↦ hm

theorem issue (e : ε) : Mirrors φ Eq (Traced.issue e) (Traced.issue e) :=
  fun _ ↦ ⟨rfl, rfl, rfl⟩

theorem issueAll (es : List ε) : Mirrors φ Eq (Traced.issueAll es) (Traced.issueAll es) := by
  intro s
  refine ⟨rfl, rfl, ?_⟩
  simp [Function.comp_def]

theorem ite {c : Prop} [Decidable c] {m n : Traced σ ε α} {m' n' : Traced τ ε β}
    (hm : Mirrors φ R m m') (hn : Mirrors φ R n n') :
    Mirrors φ R (if c then m else n) (if c then m' else n') := by
  split <;> assumption

theorem discard {m : Traced σ ε α} {m' : Traced τ ε α} (hm : Mirrors φ Eq m m') :
    Mirrors φ Eq (Functor.discard m) (Functor.discard m') := andThen hm fun _ ↦ pure rfl

end Mirrors

end Traced
