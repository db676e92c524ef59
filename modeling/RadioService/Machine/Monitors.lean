import RadioService.Machine.Traced

/-!
# Monitors

A monitor reads a log event by event, in phases, and says which event it allows in
which phase.  `Guards` gives programs pre- and postconditions about their state and
the phase of a monitor beside them, and with these the rules to put programs together.
-/

namespace Machine

variable {φ ε ε' : Type}

structure Monitor (φ ε : Type) where
  next : φ → ε → φ
  Allows : φ → ε → Prop

namespace Monitor

variable (M : Monitor φ ε)

/-- The phase behind `es`. -/
def after (phase : φ) (es : List ε) : φ := es.foldl M.next phase

/-- Every event is allowed in the phase it meets. -/
def Passes : φ → List ε → Prop
  | _, [] => True
  | phase, e :: es => M.Allows phase e ∧ Passes (M.next phase e) es

@[simp] theorem after_nil (phase : φ) : M.after phase [] = phase := rfl

@[simp] theorem after_cons (phase : φ) (e : ε) (es : List ε) :
    M.after phase (e :: es) = M.after (M.next phase e) es := rfl

@[simp] theorem after_append (phase : φ) (es es' : List ε) :
    M.after phase (es ++ es') = M.after (M.after phase es) es' := List.foldl_append

@[simp] theorem passes_append (phase : φ) (es es' : List ε) :
    M.Passes phase (es ++ es') ↔ M.Passes phase es ∧ M.Passes (M.after phase es) es' := by
  induction es generalizing phase with
  | nil => simp [Passes]
  | cons e es ih => simp [Passes, ih, and_assoc]

/-- What every event keeps, if it is one of `ok`, is kept by a log of such events. -/
theorem passes_of_forall {I : φ → Prop} {ok : ε → Prop}
    (hok : ∀ e, ok e → ∀ phase, I phase → M.Allows phase e ∧ I (M.next phase e))
    {es : List ε} (hes : ∀ e ∈ es, ok e) {phase : φ} (hphase : I phase) :
    M.Passes phase es ∧ I (M.after phase es) := by
  induction es generalizing phase with
  | nil => exact ⟨trivial, hphase⟩
  | cons e es ih =>
      obtain ⟨he, hes⟩ := List.forall_mem_cons.mp hes
      obtain ⟨hallows, hnext⟩ := hok e he phase hphase
      obtain ⟨hpasses, hafter⟩ := ih hes hnext
      exact ⟨⟨hallows, hpasses⟩, hafter⟩

/-- The monitor on the part of a log that `f` picks. -/
def on (f : ε' → Option ε) : Monitor φ ε' where
  next phase e := (f e).elim phase (M.next phase)
  Allows phase e := ∀ e', f e = some e' → M.Allows phase e'

theorem passes_on (f : ε' → Option ε) (phase : φ) (es : List ε') :
    (M.on f).Passes phase es ↔ M.Passes phase (es.filterMap f) := by
  induction es generalizing phase with
  | nil => rfl
  | cons e es ih =>
      change (M.on f).Allows phase e ∧ (M.on f).Passes ((M.on f).next phase e) es ↔ _
      rw [ih]
      cases hfe : f e with
      | none =>
          have hallows : (M.on f).Allows phase e := fun e' he' ↦ nomatch hfe.symm.trans he'
          have hnext : (M.on f).next phase e = phase := by simp [on, hfe]
          rw [List.filterMap_cons_none hfe, hnext]
          exact and_iff_right hallows
      | some e' =>
          have hallows : (M.on f).Allows phase e ↔ M.Allows phase e' := by simp [on, hfe]
          have hnext : (M.on f).next phase e = M.next phase e' := by simp [on, hfe]
          rw [List.filterMap_cons_some hfe, hnext, hallows]
          rfl

/-- What the events that are picked keep. -/
theorem on_keeps {f : ε' → Option ε} {I : φ → Prop} {e : ε'}
    (he : ∀ e', f e = some e' → ∀ phase, I phase → M.Allows phase e' ∧ I (M.next phase e'))
    {phase : φ} (hphase : I phase) : (M.on f).Allows phase e ∧ I ((M.on f).next phase e) := by
  refine ⟨fun e' hfe ↦ (he e' hfe phase hphase).1, ?_⟩
  cases hfe : f e with
  | none => simpa [on, hfe] using hphase
  | some e' => simpa [on, hfe] using (he e' hfe phase hphase).2

/-! ## Programs beside a monitor -/

variable {σ τ α β ι : Type}

/-- From `P`, all events of `m` are allowed, and `m` ends with `Q`. -/
def Guards (P : σ → φ → Prop) (m : Traced σ ε α) (Q : α → σ → φ → Prop) : Prop :=
  ∀ s phase, P s phase → M.Passes phase (m.run s).events ∧
    Q (m.run s).val (m.run s).state (M.after phase (m.run s).events)

namespace Guards

variable {M} {P S : σ → φ → Prop} {Q Q' : α → σ → φ → Prop} {R : β → σ → φ → Prop}

theorem pure {a : α} (h : ∀ s phase, P s phase → Q a s phase) :
    M.Guards P (Pure.pure a : Traced σ ε α) Q := fun s phase hP ↦ ⟨trivial, h s phase hP⟩

theorem conseq {m : Traced σ ε α} (hm : M.Guards P m Q)
    (hP : ∀ s phase, S s phase → P s phase) (hQ : ∀ a s phase, Q a s phase → Q' a s phase) :
    M.Guards S m Q' :=
  fun s phase h ↦ (hm s phase (hP s phase h)).imp_right (hQ _ _ _)

theorem bind {m : Traced σ ε α} {g : α → Traced σ ε β} (hm : M.Guards P m Q)
    (hg : ∀ a, M.Guards (Q a) (g a) R) : M.Guards P (m >>= g) R := by
  intro s phase hP
  obtain ⟨hpasses, hQ⟩ := hm s phase hP
  obtain ⟨hpasses', hR⟩ := hg _ _ _ hQ
  rw [Traced.run_bind, Outcome.events_prepend, passes_append, after_append]
  exact ⟨⟨hpasses, hpasses'⟩, hR⟩

theorem ite {c : Prop} [Decidable c] {m n : Traced σ ε α} (hm : c → M.Guards P m Q)
    (hn : ¬c → M.Guards P n Q) : M.Guards P (if c then m else n) Q := by
  split
  · exact hm ‹_›
  · exact hn ‹_›

/-- What a program does with the state it reads. -/
theorem read {g : σ → Traced σ ε β}
    (hg : ∀ s, M.Guards (fun s' phase ↦ s' = s ∧ P s' phase) (g s) R) :
    M.Guards P (Traced.read >>= g) R := fun s phase hP ↦ hg s s phase ⟨rfl, hP⟩

theorem update {u : σ → σ} {m : Traced σ ε β} (hu : ∀ s phase, P s phase → S (u s) phase)
    (hm : M.Guards S m R) : M.Guards P (Traced.update u >>= fun _ ↦ m) R :=
  fun s phase hP ↦ hm (u s) phase (hu s phase hP)

theorem issue {e : ε} {m : Traced σ ε β}
    (he : ∀ s phase, P s phase → M.Allows phase e ∧ S s (M.next phase e))
    (hm : M.Guards S m R) : M.Guards P (Traced.issue e >>= fun _ ↦ m) R := by
  intro s phase hP
  obtain ⟨hallows, hS⟩ := he s phase hP
  obtain ⟨hpasses, hR⟩ := hm s _ hS
  exact ⟨⟨hallows, hpasses⟩, hR⟩

theorem discard {m : Traced σ ε α} {Q : Unit → σ → φ → Prop}
    (hm : M.Guards P m fun _ ↦ Q ()) : M.Guards P (Functor.discard m) Q :=
  hm.bind fun _ ↦ pure fun _ _ hQ ↦ hQ

/-- A program whose events are all allowed, and of whose state a part is kept. -/
theorem of_frame {f : σ → τ} {ok : ε → Prop} {I : φ → Prop} {m : Traced σ ε α}
    (hm : Traced.Frame f (fun _ ↦ ok) m)
    (hok : ∀ e, ok e → ∀ phase, I phase → M.Allows phase e ∧ I (M.next phase e))
    (K : τ → Prop) :
    M.Guards (fun s phase ↦ K (f s) ∧ I phase) m fun _ s phase ↦ K (f s) ∧ I phase := by
  rintro s phase ⟨hK, hI⟩
  have hevents : ∀ e ∈ (m.run s).events, ok e := by
    intro e he
    obtain ⟨p, hp, rfl⟩ := List.mem_map.mp he
    exact ((hm s).2 p hp).2
  obtain ⟨hpasses, hafter⟩ := M.passes_of_forall hok hevents hI
  exact ⟨hpasses, (hm s).1.symm ▸ hK, hafter⟩

/-- What every call keeps holds along all runs. -/
theorem run {exec : ι → Traced σ ε Unit} (h : ∀ i, M.Guards P (exec i) fun _ ↦ P) {s : σ}
    {phase : φ} (hP : P s phase) (is : List ι) :
    M.Passes phase ((Machine.run (Traced.machine exec) s is).2.map Prod.snd) := by
  induction is generalizing s phase with
  | nil => trivial
  | cons i is ih =>
      obtain ⟨hpasses, hnext⟩ := h i s phase hP
      rw [run_cons, List.map_append, passes_append]
      exact ⟨hpasses, ih hnext⟩

end Guards

end Monitor

end Machine
