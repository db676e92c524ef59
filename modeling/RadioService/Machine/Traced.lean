import Mathlib.Logic.Basic
import Mathlib.Data.List.Basic
import RadioService.Machine.Runs

/-!
# Programs that leave a log

A `Traced` program reads and changes a state and logs what it does to the
world outside.  Each log entry carries the state the event was issued in, so
that safety properties ("no `e` while `s`") are statements about the log.

`Frame` says that a program leaves an observation of the state alone and issues
only events that the observation permits; `Keeps` and `Ensures` carry an
invariant from end to end.  All three compose without looking at the values a
program returns.  `Logs` follows the events from one start state.
-/

/-- What running a program leaves behind. -/
@[ext] structure Outcome (σ ε α : Type) where
  val : α
  state : σ
  log : List (σ × ε)

/-- A program over a state `σ` that issues events `ε`. -/
structure Traced (σ ε α : Type) where
  run : σ → Outcome σ ε α

namespace Outcome

variable {σ ε α : Type}

/-- Put earlier events in front of an outcome's log. -/
def prepend (l : List (σ × ε)) (o : Outcome σ ε α) : Outcome σ ε α :=
  ⟨o.val, o.state, l ++ o.log⟩

@[simp] theorem prepend_val (l : List (σ × ε)) (o : Outcome σ ε α) :
    (o.prepend l).val = o.val := rfl

@[simp] theorem prepend_state (l : List (σ × ε)) (o : Outcome σ ε α) :
    (o.prepend l).state = o.state := rfl

@[simp] theorem prepend_log (l : List (σ × ε)) (o : Outcome σ ε α) :
    (o.prepend l).log = l ++ o.log := rfl

@[simp] theorem prepend_nil (o : Outcome σ ε α) : o.prepend [] = o := rfl

@[simp] theorem prepend_mk (l l' : List (σ × ε)) (a : α) (s : σ) :
    prepend l ⟨a, s, l'⟩ = ⟨a, s, l ++ l'⟩ := rfl

@[simp] theorem prepend_prepend (l l' : List (σ × ε)) (o : Outcome σ ε α) :
    (o.prepend l').prepend l = o.prepend (l ++ l') := by
  simp [prepend, List.append_assoc]

def events (o : Outcome σ ε α) : List ε := o.log.map Prod.snd

@[simp] theorem events_mk (a : α) (s : σ) (l : List (σ × ε)) :
    (⟨a, s, l⟩ : Outcome σ ε α).events = l.map Prod.snd := rfl

@[simp] theorem events_prepend (l : List (σ × ε)) (o : Outcome σ ε α) :
    (o.prepend l).events = l.map Prod.snd ++ o.events := by
  simp [events]

end Outcome

namespace Traced

variable {σ ε τ α β : Type}

instance : Monad (Traced σ ε) where
  pure a := ⟨fun s ↦ ⟨a, s, []⟩⟩
  bind m f := ⟨fun s ↦ ((f (m.run s).val).run (m.run s).state).prepend (m.run s).log⟩

def read : Traced σ ε σ := ⟨fun s ↦ ⟨s, s, []⟩⟩

def update (f : σ → σ) : Traced σ ε Unit := ⟨fun s ↦ ⟨(), f s, []⟩⟩

def issue (e : ε) : Traced σ ε Unit := ⟨fun s ↦ ⟨(), s, [(s, e)]⟩⟩

def issueAll (es : List ε) : Traced σ ε Unit := ⟨fun s ↦ ⟨(), s, es.map (s, ·)⟩⟩

@[simp] theorem run_pure (a : α) (s : σ) :
    (pure a : Traced σ ε α).run s = ⟨a, s, []⟩ := rfl

@[simp] theorem run_bind (m : Traced σ ε α) (f : α → Traced σ ε β) (s : σ) :
    (m >>= f).run s =
      ((f (m.run s).val).run (m.run s).state).prepend (m.run s).log := rfl

@[simp] theorem run_read (s : σ) : (read : Traced σ ε σ).run s = ⟨s, s, []⟩ := rfl

@[simp] theorem run_update (f : σ → σ) (s : σ) :
    (update f : Traced σ ε Unit).run s = ⟨(), f s, []⟩ := rfl

@[simp] theorem run_issue (e : ε) (s : σ) :
    (issue e : Traced σ ε Unit).run s = ⟨(), s, [(s, e)]⟩ := rfl

@[simp] theorem run_issueAll (es : List ε) (s : σ) :
    (issueAll es : Traced σ ε Unit).run s = ⟨(), s, es.map (s, ·)⟩ := rfl

@[simp] theorem run_ite (c : Prop) [Decidable c] (m n : Traced σ ε α) (s : σ) :
    (if c then m else n).run s = if c then m.run s else n.run s := by
  split <;> rfl

@[simp] theorem run_discard (m : Traced σ ε α) (s : σ) :
    (discard m).run s = ⟨(), (m.run s).state, (m.run s).log⟩ := by
  change (m >>= fun _ ↦ pure ()).run s = _
  simp [Outcome.prepend]

theorem bind_assoc {γ : Type} (m : Traced σ ε α) (f : α → Traced σ ε β)
    (g : β → Traced σ ε γ) : m >>= f >>= g = m >>= fun a ↦ f a >>= g := by
  refine congrArg Traced.mk (funext fun s ↦ ?_)
  exact (Outcome.prepend_prepend _ _ _).symm

/-! ## Observations a program leaves alone -/

/-- `m` keeps the observation `f`, at every event on the way as well as at the
end, and issues only events that `ok` permits for that observation. -/
def Frame (f : σ → τ) (ok : τ → ε → Prop) (m : Traced σ ε α) : Prop :=
  ∀ s, f (m.run s).state = f s ∧ ∀ p ∈ (m.run s).log, f p.1 = f s ∧ ok (f s) p.2

namespace Frame

variable {f : σ → τ} {ok : τ → ε → Prop}

theorem pure (a : α) : Frame f ok (Pure.pure a : Traced σ ε α) := by
  intro s
  simp

theorem read : Frame f ok (Traced.read : Traced σ ε σ) := by
  intro s
  simp

theorem update {g : σ → σ} (hg : ∀ s, f (g s) = f s) :
    Frame f ok (Traced.update g : Traced σ ε Unit) := by
  intro s
  simpa using hg s

theorem issue {e : ε} (he : ∀ t, ok t e) :
    Frame f ok (Traced.issue e : Traced σ ε Unit) := by
  intro s
  simpa using he (f s)

theorem issueAll {es : List ε} (hes : ∀ e ∈ es, ∀ t, ok t e) :
    Frame f ok (Traced.issueAll es : Traced σ ε Unit) := by
  intro s
  refine ⟨rfl, ?_⟩
  intro p hp
  obtain ⟨e, he, rfl⟩ := List.mem_map.mp hp
  exact ⟨rfl, hes e he (f s)⟩

theorem bind {m : Traced σ ε α} {g : α → Traced σ ε β}
    (hm : Frame f ok m) (hg : ∀ a, Frame f ok (g a)) : Frame f ok (m >>= g) := by
  intro s
  obtain ⟨hstate, hlog⟩ := hm s
  obtain ⟨hstate', hlog'⟩ := hg (m.run s).val (m.run s).state
  refine ⟨hstate'.trans hstate, ?_⟩
  intro p hp
  rcases List.mem_append.mp hp with hp | hp
  · exact hlog p hp
  · have h := hlog' p hp
    rw [hstate] at h
    exact h

/-- A change of state in front; the hypothesis is `rfl` for most. -/
theorem updating {g : σ → σ} {m : Traced σ ε α} (hg : (fun s ↦ f (g s)) = f)
    (hm : Frame f ok m) : Frame f ok (Traced.update g >>= fun _ ↦ m) :=
  bind (update fun s ↦ congrFun hg s) fun _ ↦ hm

theorem ite {c : Prop} [Decidable c] {m n : Traced σ ε α}
    (hm : Frame f ok m) (hn : Frame f ok n) : Frame f ok (if c then m else n) := by
  split <;> assumption

theorem discard {m : Traced σ ε α} (hm : Frame f ok m) : Frame f ok (Functor.discard m) :=
  hm.bind fun _ ↦ pure ()

theorem mono {ok' : τ → ε → Prop} {m : Traced σ ε α} (h : ∀ t e, ok t e → ok' t e)
    (hm : Frame f ok m) : Frame f ok' m :=
  fun s ↦ ⟨(hm s).1, fun p hp ↦ ⟨((hm s).2 p hp).1, h _ _ ((hm s).2 p hp).2⟩⟩

/-- A kept observation keeps everything computed from it. -/
theorem comp {υ : Type} {m : Traced σ ε α} (g : τ → υ) {ok' : υ → ε → Prop}
    (h : ∀ t e, ok t e → ok' (g t) e) (hm : Frame f ok m) :
    Frame (fun s ↦ g (f s)) ok' m := by
  intro s
  refine ⟨congrArg g (hm s).1, ?_⟩
  intro p hp
  obtain ⟨hf, hok⟩ := (hm s).2 p hp
  exact ⟨congrArg g hf, h _ _ hok⟩

end Frame

/-! ## Invariants -/

def Keeps (I : σ → Prop) (m : Traced σ ε α) : Prop := ∀ s, I s → I (m.run s).state

/-- `m` ends with `I`, wherever it starts. -/
def Ensures (I : σ → Prop) (m : Traced σ ε α) : Prop := ∀ s, I (m.run s).state

namespace Keeps

variable {I : σ → Prop}

theorem pure (a : α) : Keeps I (Pure.pure a : Traced σ ε α) := fun _ hs ↦ hs

theorem read : Keeps I (Traced.read : Traced σ ε σ) := fun _ hs ↦ hs

theorem update {f : σ → σ} (hf : ∀ s, I s → I (f s)) :
    Keeps I (Traced.update f : Traced σ ε Unit) := hf

theorem issue (e : ε) : Keeps I (Traced.issue e) := fun _ hs ↦ hs

theorem issueAll (es : List ε) : Keeps I (Traced.issueAll es) := fun _ hs ↦ hs

theorem bind {m : Traced σ ε α} {g : α → Traced σ ε β} (hm : Keeps I m)
    (hg : ∀ a, Keeps I (g a)) : Keeps I (m >>= g) := fun s hs ↦ hg _ _ (hm s hs)

theorem updating {f : σ → σ} {m : Traced σ ε α} (hf : (fun s ↦ I (f s)) = I)
    (hm : Keeps I m) : Keeps I (Traced.update f >>= fun _ ↦ m) :=
  bind (update fun s hs ↦ (congrFun hf s).mpr hs) fun _ ↦ hm

theorem ite {c : Prop} [Decidable c] {m n : Traced σ ε α} (hm : Keeps I m)
    (hn : Keeps I n) : Keeps I (if c then m else n) := by
  split <;> assumption

theorem discard {m : Traced σ ε α} (hm : Keeps I m) : Keeps I (Functor.discard m) :=
  hm.bind fun _ ↦ pure ()

end Keeps

namespace Ensures

variable {I : σ → Prop}

theorem keeps {m : Traced σ ε α} (hm : Ensures I m) : Keeps I m := fun s _ ↦ hm s

theorem after (m : Traced σ ε α) {g : α → Traced σ ε β} (hg : ∀ a, Ensures I (g a)) :
    Ensures I (m >>= g) := fun s ↦ hg _ (m.run s).state

theorem bind {m : Traced σ ε α} {g : α → Traced σ ε β} (hm : Ensures I m)
    (hg : ∀ a, Keeps I (g a)) : Ensures I (m >>= g) := fun s ↦ hg _ _ (hm s)

theorem ite {c : Prop} [Decidable c] {m n : Traced σ ε α} (hm : Ensures I m)
    (hn : Ensures I n) : Ensures I (if c then m else n) := by
  split <;> assumption

end Ensures

/-- From states with `I`, `m` keeps `I` and issues only events that `ok` permits. -/
def Confined (I : σ → Prop) (ok : ε → Prop) (m : Traced σ ε α) : Prop :=
  ∀ s, I s → I (m.run s).state ∧ ∀ p ∈ (m.run s).log, ok p.2

namespace Confined

variable {I : σ → Prop} {ok : ε → Prop}

theorem pure (a : α) : Confined I ok (Pure.pure a : Traced σ ε α) :=
  fun _ hs ↦ ⟨hs, fun _ hp ↦ by cases hp⟩

theorem read : Confined I ok (Traced.read : Traced σ ε σ) :=
  fun _ hs ↦ ⟨hs, fun _ hp ↦ by cases hp⟩

theorem update {f : σ → σ} (hf : ∀ s, I s → I (f s)) :
    Confined I ok (Traced.update f : Traced σ ε Unit) :=
  fun s hs ↦ ⟨hf s hs, fun _ hp ↦ by cases hp⟩

theorem issue {e : ε} (he : ok e) : Confined I ok (Traced.issue e : Traced σ ε Unit) := by
  intro s hs
  refine ⟨hs, fun p hp ↦ ?_⟩
  rw [List.mem_singleton.mp hp]
  exact he

theorem bind {m : Traced σ ε α} {g : α → Traced σ ε β} (hm : Confined I ok m)
    (hg : ∀ a, Confined I ok (g a)) : Confined I ok (m >>= g) := by
  intro s hs
  obtain ⟨hstate, hlog⟩ := hm s hs
  obtain ⟨hstate', hlog'⟩ := hg (m.run s).val (m.run s).state hstate
  refine ⟨hstate', fun p hp ↦ ?_⟩
  rcases List.mem_append.mp hp with hp | hp
  · exact hlog p hp
  · exact hlog' p hp

theorem updating {f : σ → σ} {m : Traced σ ε α} (hf : ∀ s, I s → I (f s))
    (hm : Confined I ok m) : Confined I ok (Traced.update f >>= fun _ ↦ m) :=
  bind (update hf) fun _ ↦ hm

theorem ite {c : Prop} [Decidable c] {m n : Traced σ ε α} (hm : Confined I ok m)
    (hn : Confined I ok n) : Confined I ok (if c then m else n) := by
  split <;> assumption

theorem of_frame {f : σ → τ} {ok' : τ → ε → Prop} {m : Traced σ ε α} (hm : Frame f ok' m)
    (hI : ∀ s s', f s' = f s → I s → I s') (hok : ∀ t e, ok' t e → ok e) : Confined I ok m :=
  fun s hs ↦ ⟨hI s _ (hm s).1 hs, fun p hp ↦ hok _ _ ((hm s).2 p hp).2⟩

end Confined

/-- `m` ends with a value and a state that `P` relates, wherever it starts. -/
def Returns (P : α → σ → Prop) (m : Traced σ ε α) : Prop :=
  ∀ s, P (m.run s).val (m.run s).state

namespace Returns

theorem after {P : β → σ → Prop} (m : Traced σ ε α) {g : α → Traced σ ε β}
    (hg : ∀ a, Returns P (g a)) : Returns P (m >>= g) := fun s ↦ hg _ (m.run s).state

theorem ite {P : α → σ → Prop} {c : Prop} [Decidable c] {m n : Traced σ ε α}
    (hm : Returns P m) (hn : Returns P n) : Returns P (if c then m else n) := by
  split <;> assumption

end Returns

/-! ## Events -/

/-- From `s`, `m` issues only events that `E` allows in the state they meet. -/
def Logs (E : σ × ε → Prop) (m : Traced σ ε α) (s : σ) : Prop := ∀ p ∈ (m.run s).log, E p

namespace Logs

variable {E : σ × ε → Prop} {s : σ}

theorem pure (a : α) : Logs E (Pure.pure a) s := by
  intro p hp
  cases hp

theorem update {f : σ → σ} {m : Traced σ ε α} (hm : Logs E m (f s)) :
    Logs E (Traced.update f >>= fun _ ↦ m) s := hm

theorem issue {e : ε} (he : E (s, e)) : Logs E (Traced.issue e) s := by
  intro p hp
  rw [List.mem_singleton.mp hp]
  exact he

theorem bind {m : Traced σ ε α} {g : α → Traced σ ε β} (hm : Logs E m s)
    (hg : Logs E (g (m.run s).val) (m.run s).state) : Logs E (m >>= g) s := by
  intro p hp
  rcases List.mem_append.mp hp with hp | hp
  · exact hm p hp
  · exact hg p hp

theorem ite {c : Prop} [Decidable c] {m n : Traced σ ε α} (hm : c → Logs E m s)
    (hn : ¬c → Logs E n s) : Logs E (if c then m else n) s := by
  split
  · exact hm ‹_›
  · exact hn ‹_›

theorem of_frame {f : σ → τ} {ok : τ → ε → Prop} {m : Traced σ ε α} (hm : Frame f ok m)
    (h : ∀ p : σ × ε, f p.1 = f s → ok (f s) p.2 → E p) : Logs E m s :=
  fun p hp ↦ h p ((hm s).2 p hp).1 ((hm s).2 p hp).2

end Logs

/-! ## Observations that the events account for -/

/-- The observation `f` follows the events of `m`: each of them moves it as `g`
says, and nothing else moves it. -/
def Follows (f : σ → τ) (g : τ → ε → τ) (m : Traced σ ε α) : Prop :=
  ∀ s, f (m.run s).state = (m.run s).events.foldl g (f s)

namespace Follows

variable {f : σ → τ} {g : τ → ε → τ}

theorem pure (a : α) : Follows f g (Pure.pure a : Traced σ ε α) := fun _ ↦ rfl

theorem read : Follows f g (Traced.read : Traced σ ε σ) := fun _ ↦ rfl

theorem update {u : σ → σ} (hu : ∀ s, f (u s) = f s) :
    Follows f g (Traced.update u : Traced σ ε Unit) := hu

/-- An event and the change of state that goes with it. -/
theorem signal {e : ε} {u : σ → σ} (hu : ∀ s, f (u s) = g (f s) e) :
    Follows f g (do issue e; Traced.update u : Traced σ ε Unit) := hu

theorem issue {e : ε} (he : ∀ t, g t e = t) : Follows f g (Traced.issue e : Traced σ ε Unit) :=
  fun s ↦ (he (f s)).symm

theorem foldl_ignored {es : List ε} (hes : ∀ e ∈ es, ∀ t, g t e = t) (t : τ) :
    es.foldl g t = t := by
  induction es with
  | nil => rfl
  | cons e es ih =>
      rw [List.foldl_cons, hes e List.mem_cons_self]
      exact ih fun e he ↦ hes e (List.mem_cons_of_mem _ he)

theorem issueAll {es : List ε} (hes : ∀ e ∈ es, ∀ t, g t e = t) :
    Follows f g (Traced.issueAll es : Traced σ ε Unit) := by
  intro s
  have hevents : ((Traced.issueAll es : Traced σ ε Unit).run s).events = es := by
    simp [Function.comp_def]
  rw [hevents, foldl_ignored hes]
  rfl

theorem of_frame {υ : Type} {h : σ → υ} {ok : υ → ε → Prop} {m : Traced σ ε α}
    (hm : Frame h ok m) (hf : ∀ s s', h s' = h s → f s' = f s)
    (hok : ∀ t e, ok t e → ∀ c, g c e = c) : Follows f g m := by
  intro s
  rw [foldl_ignored, hf s _ (hm s).1]
  intro e he
  obtain ⟨p, hp, rfl⟩ := List.mem_map.mp he
  exact hok _ _ ((hm s).2 p hp).2

theorem bind {m : Traced σ ε α} {n : α → Traced σ ε β} (hm : Follows f g m)
    (hn : ∀ a, Follows f g (n a)) : Follows f g (m >>= n) := by
  intro s
  rw [run_bind, Outcome.events_prepend, List.foldl_append, Outcome.prepend_state]
  exact (hn _ _).trans (congrArg (List.foldl g · _) (hm s))

theorem updating {u : σ → σ} {m : Traced σ ε α} (hu : (fun s ↦ f (u s)) = f)
    (hm : Follows f g m) : Follows f g (Traced.update u >>= fun _ ↦ m) :=
  bind (update fun s ↦ congrFun hu s) fun _ ↦ hm

theorem ite {c : Prop} [Decidable c] {m n : Traced σ ε α} (hm : Follows f g m)
    (hn : Follows f g n) : Follows f g (if c then m else n) := by
  split <;> assumption

theorem discard {m : Traced σ ε α} (hm : Follows f g m) : Follows f g (Functor.discard m) :=
  hm.bind fun _ ↦ pure ()

end Follows

/-! ## Programs as machines -/

/-- The machine that answers an input by running the program for it. -/
def machine (exec : ι → Traced σ ε Unit) : Machine.Step σ ι (σ × ε) :=
  fun s i ↦ (((exec i).run s).state, ((exec i).run s).log)

theorem Follows.run {f : σ → τ} {g : τ → ε → τ} {exec : ι → Traced σ ε Unit}
    (h : ∀ i, Follows f g (exec i)) (s : σ) (is : List ι) :
    f (Machine.run (machine exec) s is).1 =
      ((Machine.run (machine exec) s is).2.map Prod.snd).foldl g (f s) := by
  induction is generalizing s with
  | nil => rfl
  | cons i is ih =>
      rw [Machine.run_cons, List.map_append, List.foldl_append]
      exact (ih _).trans (congrArg (List.foldl g · _) (h i s))

end Traced
