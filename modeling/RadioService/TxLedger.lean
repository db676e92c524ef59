import Mathlib.Data.List.Nodup
import Mathlib.Data.List.Perm.Basic
import RadioService.TxSystem

/-!
# One terminal for each accepted frame

The frames accepted so far are, in order, those whose terminals were issued,
those out of the queue whose terminals are outstanding, and those in the queue.
-/

namespace RadioService

open Burst Traced Machine

/-! ## Reading a history -/

def TxEvent.answer? : TxEvent → Option (TxFrame × Terminal)
  | .answer frame t => some (frame, t)
  | _ => none

def TxEvent.terminal? : TxEvent → Option (TxFrame × Terminal)
  | .effect (.onTxTerminal frame t) => some (frame, t)
  | _ => none

/-- A `startTransmit` for a packet of a frame, and the status it returns. -/
def TxEvent.start? : TxEvent → Option (TxFrame × Int16)
  | .effect (.radio (.startTransmit frame _ st)) => some (frame, st)
  | _ => none

/-- What the calls of `enqueueTx` have returned. -/
def answers (out : List TxEvent) : List (TxFrame × Terminal) := out.filterMap TxEvent.answer?

def terminals (out : List TxEvent) : List (TxFrame × Terminal) := out.filterMap TxEvent.terminal?

def starts (out : List TxEvent) : List (TxFrame × Int16) := out.filterMap TxEvent.start?

def answered (t : Terminal) (out : List TxEvent) : List TxFrame :=
  ((answers out).filter (·.2 = t)).map Prod.fst

abbrev accepted (out : List TxEvent) : List TxFrame := answered .kOk out

abbrev refused (out : List TxEvent) : List TxFrame := answered .kBusy out

section Append

variable (out out' : List TxEvent)

@[simp] theorem answers_append : answers (out ++ out') = answers out ++ answers out' :=
  List.filterMap_append

@[simp] theorem terminals_append : terminals (out ++ out') = terminals out ++ terminals out' :=
  List.filterMap_append

@[simp] theorem starts_append : starts (out ++ out') = starts out ++ starts out' :=
  List.filterMap_append

@[simp] theorem answered_append (t : Terminal) :
    answered t (out ++ out') = answered t out ++ answered t out' := by
  simp [answered]

end Append

theorem mem_answered {t : Terminal} {out : List TxEvent} {frame : TxFrame} :
    frame ∈ answered t out ↔ (frame, t) ∈ answers out := by
  simp [answered]

/-! ## Programs that touch no frame -/

def Effect.frameless : Effect → Bool
  | .radio (.startTransmit _ _ _) | .onTxTerminal _ _ => false
  | _ => true

theorem Effect.frameless_of_quiet {e : Effect} (h : e.quiet = true) : e.frameless = true := by
  unfold Effect.frameless
  split <;> first | cases h | rfl

theorem Effect.frameless_of_receiving {e : Effect} (h : e.receiving = true) :
    e.frameless = true := by
  unfold Effect.frameless
  split <;> first | cases h | rfl

/-- `m` leaves the queue alone and issues only effects that name no frame. -/
abbrev Frameless {α : Type} (m : Work α) : Prop :=
  Frame RadioWorker.txQ (fun _ e ↦ e.frameless = true) m

theorem Calm.frameless {α : Type} {m : Work α} (h : Calm m) : Frameless m :=
  Frame.mono (fun _ _ ↦ Effect.frameless_of_quiet) h

theorem RxOnly.frameless {α : Type} {m : Work α} (h : RxOnly m) : Frameless m :=
  Frame.comp (f := fun w : RadioWorker ↦ (w.toSettings, w.txQ)) Prod.snd
    (fun _ _ ↦ Effect.frameless_of_receiving) h

theorem Frameless.tickLevel (now : UInt32) (r : ThermalReading) : Frameless (tickLevel now r) := by
  refine Frame.read.bind fun w ↦ (Frame.pure none).ite <| Frame.updating rfl <|
    (readLevel_sensorOnly r).setsUp.calm.frameless.bind fun next ↦ Frame.read.bind fun w ↦ ?_
  cases next with
  | none => exact Frame.pure none
  | some level => exact Frame.ite (Frame.updating rfl (Frame.pure _)) (Frame.pure none)

theorem Frameless.enterRadio (prev level : Int) (io : ThermalInput) :
    Frameless (enterRadio prev level io) :=
  Calm.rules.cutPower.frameless.ite <| (Quiet.rules.throttle io).calm.frameless.ite <|
    (Calm.rules.recover prev io).frameless.ite (Frame.pure ())

/-! ## The ledger -/

/-- What the history says of the state: which frames are where, and that every
call has been answered once or waits for its answer. -/
structure Ledger (s : TxSystem) (out : List TxEvent) : Prop where
  conserved : accepted out =
    (terminals out ++ s.stage.due).map Prod.fst ++ s.stage.popped ++ s.worker.txQ
  queue_le : s.worker.txQ.length ≤ 16
  inFlight_le : s.stage.inFlight.length ≤ 16
  started : ∀ p ∈ starts out, p.1 ∈ (terminals out ++ s.stage.due).map Prod.fst
  calls : (((answers out).map Prod.fst ++ s.checked).map TxFrame.call).Perm (List.range s.calls)

theorem answers_shown {α : Type} (o : Outcome RadioWorker Effect α) : answers (shown o) = [] := by
  refine List.filterMap_eq_nil_iff.mpr fun e he ↦ ?_
  obtain ⟨p, -, rfl⟩ := List.mem_map.mp he
  rfl

theorem Effect.terminal?_of_frameless {e : Effect} (h : e.frameless = true) :
    (TxEvent.effect e).terminal? = none := by
  unfold TxEvent.terminal?
  split
  · next heq => cases heq; cases h
  · rfl

theorem Effect.start?_of_frameless {e : Effect} (h : e.frameless = true) :
    (TxEvent.effect e).start? = none := by
  unfold TxEvent.start?
  split
  · next heq => cases heq; cases h
  · rfl

theorem Effect.terminal?_of_transmitting {frame : TxFrame} {e : Effect}
    (h : e.transmitting frame = true) : (TxEvent.effect e).terminal? = none := by
  unfold TxEvent.terminal?
  split
  · next heq => cases heq; cases h
  · rfl

theorem Effect.start?_of_transmitting {frame : TxFrame} {e : Effect} {p : TxFrame × Int16}
    (h : e.transmitting frame = true) (hp : (TxEvent.effect e).start? = some p) :
    p.1 = frame := by
  unfold TxEvent.start? at hp
  split at hp
  · next heq =>
      cases heq
      cases hp
      exact of_decide_eq_true h
  · cases hp

theorem mem_shown {α : Type} {o : Outcome RadioWorker Effect α} {e : TxEvent} :
    e ∈ shown o ↔ ∃ p ∈ o.log, .effect p.2 = e := List.mem_map

theorem Frameless.terminals_shown {α : Type} {m : Work α} (hm : Frameless m) (w : RadioWorker) :
    terminals (shown (m.run w)) = [] := by
  refine List.filterMap_eq_nil_iff.mpr fun e he ↦ ?_
  obtain ⟨p, hp, rfl⟩ := mem_shown.mp he
  exact Effect.terminal?_of_frameless ((hm w).2 p hp).2

theorem Frameless.starts_shown {α : Type} {m : Work α} (hm : Frameless m) (w : RadioWorker) :
    starts (shown (m.run w)) = [] := by
  refine List.filterMap_eq_nil_iff.mpr fun e he ↦ ?_
  obtain ⟨p, hp, rfl⟩ := mem_shown.mp he
  exact Effect.start?_of_frameless ((hm w).2 p hp).2

theorem TxOnly.terminals_shown {α : Type} {frame : TxFrame} {m : Work α} (hm : TxOnly frame m)
    (w : RadioWorker) : terminals (shown (m.run w)) = [] := by
  refine List.filterMap_eq_nil_iff.mpr fun e he ↦ ?_
  obtain ⟨p, hp, rfl⟩ := mem_shown.mp he
  exact Effect.terminal?_of_transmitting ((hm w).2 p hp).2

/-- A burst starts packets of its own frame only. -/
theorem TxOnly.starts_shown {α : Type} {frame : TxFrame} {m : Work α} (hm : TxOnly frame m)
    (w : RadioWorker) : ∀ p ∈ starts (shown (m.run w)), p.1 = frame := by
  intro p hp
  obtain ⟨e, he, hstart⟩ := List.mem_filterMap.mp hp
  obtain ⟨q, hq, rfl⟩ := mem_shown.mp he
  exact Effect.start?_of_transmitting ((hm w).2 q hq).2 hstart

/-- A push answers `kOk` exactly when it queues the frame. -/
theorem pushFrame_queue (frame : TxFrame) (w : RadioWorker) :
    let o := (pushFrame frame).run w
    o.state.txQ = w.txQ ++ (if o.val = .kOk then [frame] else []) ∧
      (w.txQ.length ≤ 16 → o.state.txQ.length ≤ 16) := by
  by_cases hfull : w.txQ.length ≥ 16
  · simp [pushFrame, hfull]
  · have hroom : w.txQ.length + 1 ≤ 16 := by omega
    simp [pushFrame, hfull, hroom]

/-! ## Sections and frames -/

/-- What a section does to the frames: it hands on none, or it is one of the few
that do. -/
inductive Passes (s : TxSystem) : TxStep → TxSystem × List TxEvent → Prop
  | check (payload : List UInt8) : Passes s (.check payload) (s.check payload)
  | push (i : ℕ) : Passes s (.push i) (s.push i)
  | restage {i : TxStep} {stage : Stage} (hi : ∀ io frame, i = .burst io →
        s.stage ≠ .bursting frame) (hdue : stage.due = s.stage.due)
      (hpopped : stage.popped = s.stage.popped) : Passes s i ({ s with stage := stage }, [])
  | frameless {i : TxStep} {α : Type} {m : Work α} {next : α → Stage} (hi : ∀ io, i ≠ .burst io)
      (hm : Frameless m) (hdue : ∀ a, (next a).due = s.stage.due)
      (hpopped : ∀ a, (next a).popped = s.stage.popped) : Passes s i (s.perform m next)
  | drain (hs : s.stage = .draining) : Passes s .drain (s.perform drainTxQ .reporting)
  | report {frame : TxFrame} {frames : List TxFrame}
      (hs : s.stage = .reporting (frame :: frames)) :
      Passes s .report
        (s.perform (issue (.onTxTerminal frame .kDropped)) fun _ ↦ .reporting frames)
  | pop (hs : s.stage = .serving) :
      Passes s .pop (s.perform popFrame fun
        | none => .idle
        | some frame => .bursting frame)
  | burst {frame : TxFrame} (io : BurstInput) (hs : s.stage = .bursting frame) :
      Passes s (.burst io) (s.perform (burstFrame frame io) (.finishing frame))
  | finish {frame : TxFrame} {ok : Bool} (hs : s.stage = .finishing frame ok) :
      Passes s .finish
        (s.perform (issue (.onTxTerminal frame (burstTerminal ok))) fun _ ↦ .idle)

namespace Passes

variable {s : TxSystem} {i : TxStep}

theorem stay (hi : ∀ io frame, i = .burst io → s.stage ≠ .bursting frame) :
    Passes s i (s, []) := .restage hi rfl rfl

theorem guarded {c : Prop} [Decidable c] {next : TxSystem × List TxEvent}
    (hi : ∀ io, i ≠ .burst io) (hnext : c → Passes s i next) :
    Passes s i (if c then next else (s, [])) := by
  split
  · exact hnext ‹_›
  · exact stay fun io _ h ↦ absurd h (hi io)

theorem work : Passes s i (s.work i) := by
  cases i with
  | scanTick now freqSt =>
      refine guarded nofun fun hs ↦ .frameless nofun ?_ (fun _ ↦ hs ▸ rfl) fun _ ↦ hs ▸ rfl
      exact (Scans.scanTick now freqSt).quiet.calm.frameless
  | receive i l =>
      refine guarded nofun fun hs ↦ .frameless nofun ?_ (fun _ ↦ hs ▸ rfl) fun _ ↦ hs ▸ rfl
      exact (RxOnly.rxIter i l).frameless
  | tick now r =>
      refine guarded nofun fun hs ↦ .frameless nofun (Frameless.tickLevel now r) ?_ ?_ <;>
        rw [hs] <;> rintro (_ | _) <;> rfl
  | enter io =>
      unfold TxSystem.work
      dsimp only
      split
      · next prev level hs =>
          refine .frameless nofun (Frameless.enterRadio prev level io) ?_ ?_ <;>
            rw [hs] <;> intro _ <;> split <;> rfl
      · exact stay nofun
  | drain => exact guarded nofun fun hs ↦ .drain hs
  | report =>
      unfold TxSystem.work
      dsimp only
      split
      · next hs => exact .restage nofun (hs ▸ rfl) (hs ▸ rfl)
      · next hs => exact .report hs
      · exact stay nofun
  | gate => exact guarded nofun fun hs ↦ .restage nofun (hs.1 ▸ rfl) (hs.1 ▸ rfl)
  | pop => exact guarded nofun fun hs ↦ .pop hs
  | burst io =>
      unfold TxSystem.work
      dsimp only
      split
      · next hs => exact .burst io hs
      · next hs => exact stay fun _ frame _ ↦ hs frame
  | finish =>
      unfold TxSystem.work
      dsimp only
      split
      · next hs => exact .finish hs
      · exact stay nofun
  | _ => exact stay nofun

theorem step : Passes s i (txStep s i) := by
  cases i with
  | check payload => exact .check payload
  | push i => exact .push i
  | applyConfig cfg io =>
      refine .frameless ?_ (Quiet.rules.applyConfig cfg io).calm.frameless (fun _ ↦ rfl) fun _ ↦ rfl
      nofun
  | startScan p now freqSt =>
      refine .frameless ?_ (Scans.startScan p now freqSt).quiet.calm.frameless (fun _ ↦ rfl)
        fun _ ↦ rfl
      nofun
  | _ => exact work

end Passes

/-! ## Sections and the ledger -/

namespace Ledger

variable {s : TxSystem} {out : List TxEvent}

theorem start (io : InitInput) : Ledger (.start io) [] := by
  have hq : (TxSystem.start io).worker.txQ = [] := (Calm.rules.init 44 io {}).1
  exact ⟨hq.symm, by simp [hq], by simp [TxSystem.start, Stage.inFlight, Stage.due, Stage.popped],
    by simp [starts], .refl _⟩

theorem answer {frame : TxFrame} {t : Terminal} {w : RadioWorker} {checked : List TxFrame}
    {calls : ℕ} (h : Ledger s out)
    (hqueue : w.txQ = s.worker.txQ ++ if t = .kOk then [frame] else [])
    (hle : w.txQ.length ≤ 16)
    (hcalls : (((answers out).map Prod.fst ++ frame :: checked).map TxFrame.call).Perm
      (List.range calls)) :
    Ledger ⟨w, s.stage, checked, calls⟩ (out ++ [.answer frame t]) where
  conserved := by
    have hconserved := h.conserved
    by_cases ht : t = .kOk
    · simp_all [answered, answers, terminals, TxEvent.answer?, TxEvent.terminal?]
    · simp_all [answered, answers, terminals, TxEvent.answer?, TxEvent.terminal?]
  queue_le := hle
  inFlight_le := h.inFlight_le
  started := by
    have hstarted := h.started
    simpa [starts, terminals, TxEvent.start?, TxEvent.terminal?] using hstarted
  calls := by
    simpa [answers, TxEvent.answer?] using hcalls

theorem check (payload : List UInt8) (h : Ledger s out) :
    Ledger (s.check payload).1 (out ++ (s.check payload).2) := by
  let frame : TxFrame := ⟨s.calls, payload⟩
  have hcalls : (((answers out).map Prod.fst ++ s.checked ++ [frame]).map TxFrame.call).Perm
      (List.range (s.calls + 1)) := by
    rw [List.map_append, List.range_succ]
    exact h.calls.append_right _
  unfold TxSystem.check
  split
  · refine h.answer (by simp) h.queue_le (List.Perm.trans (List.Perm.map _ ?_) hcalls)
    rw [List.append_assoc]
    exact List.Perm.append_left _ (List.perm_append_singleton _ _).symm
  · rw [List.append_nil]
    rw [List.append_assoc] at hcalls
    exact ⟨h.conserved, h.queue_le, h.inFlight_le, h.started, hcalls⟩

theorem push (i : ℕ) (h : Ledger s out) : Ledger (s.push i).1 (out ++ (s.push i).2) := by
  unfold TxSystem.push
  split
  · rwa [List.append_nil]
  next frame hframe =>
    obtain ⟨hi, rfl⟩ := List.getElem?_eq_some_iff.mp hframe
    have hcalls : (((answers out).map Prod.fst ++ s.checked[i] :: s.checked.eraseIdx i).map
        TxFrame.call).Perm (List.range s.calls) :=
      (((List.getElem_cons_eraseIdx_perm hi).append_left _).map _).trans h.calls
    obtain ⟨hq, hle⟩ := pushFrame_queue s.checked[i] s.worker
    exact h.answer hq (hle h.queue_le) hcalls

/-- A section of the worker thread that hands frames on between the queue, the
stage and the terminals. -/
theorem perform {α : Type} {m : Work α} {next : α → Stage} (h : Ledger s out)
    (hframes :
      (terminals (shown (m.run s.worker)) ++ (next (m.run s.worker).val).due).map Prod.fst ++
        (next (m.run s.worker).val).popped ++ (m.run s.worker).state.txQ =
      s.stage.due.map Prod.fst ++ s.stage.popped ++ s.worker.txQ)
    (hqueue : (m.run s.worker).state.txQ.length ≤ 16)
    (hflight : (next (m.run s.worker).val).inFlight.length ≤ 16)
    (hdue : s.stage.due.map Prod.fst ⊆
      (terminals (shown (m.run s.worker)) ++ (next (m.run s.worker).val).due).map Prod.fst)
    (hstarts : ∀ p ∈ starts (shown (m.run s.worker)), p.1 ∈
      (terminals (shown (m.run s.worker)) ++ (next (m.run s.worker).val).due).map Prod.fst) :
    Ledger (s.perform m next).1 (out ++ (s.perform m next).2) where
  conserved := by
    have haccepted : accepted (out ++ shown (m.run s.worker)) = accepted out := by
      simp [answered, answers_shown]
    dsimp only [TxSystem.perform]
    rw [haccepted, h.conserved]
    simp only [terminals_append, List.map_append, List.append_assoc] at hframes ⊢
    rw [hframes]
  queue_le := hqueue
  inFlight_le := hflight
  started := by
    intro p hp
    dsimp only [TxSystem.perform] at hp ⊢
    rw [starts_append] at hp
    rw [terminals_append, List.append_assoc, List.map_append]
    rcases List.mem_append.mp hp with hp | hp
    · have hmem := h.started p hp
      rw [List.map_append] at hmem
      rcases List.mem_append.mp hmem with hmem | hmem
      · exact List.mem_append_left _ hmem
      · exact List.mem_append_right _ (hdue hmem)
    · exact List.mem_append_right _ (hstarts p hp)
  calls := by
    simpa [TxSystem.perform, answers_shown] using h.calls

theorem perform_frameless {α : Type} {m : Work α} (hm : Frameless m) {next : α → Stage}
    (hdue : ∀ a, (next a).due = s.stage.due) (hpopped : ∀ a, (next a).popped = s.stage.popped)
    (h : Ledger s out) : Ledger (s.perform m next).1 (out ++ (s.perform m next).2) := by
  have hq : (m.run s.worker).state.txQ = s.worker.txQ := (hm s.worker).1
  have hterminals := hm.terminals_shown s.worker
  have hstarts := hm.starts_shown s.worker
  refine h.perform ?_ ?_ ?_ ?_ ?_
  · rw [hterminals, hdue, hpopped, hq, List.nil_append]
  · rw [hq]
    exact h.queue_le
  · rw [Stage.inFlight, hdue, hpopped]
    exact h.inFlight_le
  · rw [hterminals, hdue, List.nil_append]
    exact List.Subset.refl _
  · rw [hstarts]
    simp

theorem drain (hs : s.stage = .draining) (h : Ledger s out) :
    Ledger (s.perform drainTxQ .reporting).1 (out ++ (s.perform drainTxQ .reporting).2) := by
  refine h.perform ?_ (by simp [drainTxQ]) ?_ (by simp [hs, Stage.due]) ?_
  · simp [drainTxQ, terminals, hs, Stage.due, Stage.popped, Function.comp_def]
  · simpa [drainTxQ, Stage.inFlight, Stage.due, Stage.popped] using h.queue_le
  · simp [drainTxQ, starts]

theorem report {frame : TxFrame} {frames : List TxFrame}
    (hs : s.stage = .reporting (frame :: frames)) (h : Ledger s out) :
    let next := s.perform (issue (.onTxTerminal frame .kDropped)) fun _ ↦ .reporting frames
    Ledger next.1 (out ++ next.2) := by
  have hflight : frames.length + 1 ≤ 16 := by
    simpa [hs, Stage.inFlight, Stage.due, Stage.popped] using h.inFlight_le
  refine h.perform ?_ h.queue_le ?_ ?_ ?_
  · simp [terminals, TxEvent.terminal?, hs, Stage.due, Stage.popped]
  · simpa [Stage.inFlight, Stage.due, Stage.popped] using Nat.le_of_succ_le hflight
  · simp [terminals, TxEvent.terminal?, hs, Stage.due]
  · simp [starts, TxEvent.start?]

theorem pop (hs : s.stage = .serving) (h : Ledger s out) :
    let next := s.perform popFrame fun
      | none => .idle
      | some frame => .bursting frame
    Ledger next.1 (out ++ next.2) := by
  have hqueue := h.queue_le
  cases hq : s.worker.txQ with
  | nil =>
      refine h.perform ?_ ?_ ?_ (by simp [hs, Stage.due]) ?_ <;>
        simp [popFrame, terminals, starts, hs, hq, Stage.inFlight, Stage.due, Stage.popped]
  | cons frame rest =>
      rw [hq, List.length_cons] at hqueue
      refine h.perform ?_ ?_ ?_ (by simp [hs, Stage.due]) ?_
      · simp [popFrame, terminals, hs, hq, Stage.due, Stage.popped]
      · simpa [popFrame, hq] using Nat.le_of_succ_le hqueue
      · simp [popFrame, hq, Stage.inFlight, Stage.due, Stage.popped]
      · simp [popFrame, starts, hq]

theorem burst {frame : TxFrame} (io : BurstInput) (hs : s.stage = .bursting frame)
    (h : Ledger s out) :
    let next := s.perform (burstFrame frame io) (.finishing frame)
    Ledger next.1 (out ++ next.2) := by
  have hburst := TxOnly.burstFrame frame io
  have hq : ((burstFrame frame io).run s.worker).state.txQ = s.worker.txQ :=
    congrArg Prod.snd (hburst s.worker).1
  have hterminals := hburst.terminals_shown s.worker
  refine h.perform ?_ (hq ▸ h.queue_le) ?_ (by simp [hs, Stage.due]) ?_
  · rw [hterminals, hq, hs]
    rfl
  · simp [Stage.inFlight, Stage.due, Stage.popped]
  · intro p hp
    simp [hburst.starts_shown s.worker p hp, Stage.due]

theorem finish {frame : TxFrame} {ok : Bool} (hs : s.stage = .finishing frame ok)
    (h : Ledger s out) :
    let next := s.perform (issue (.onTxTerminal frame (burstTerminal ok))) fun _ ↦ .idle
    Ledger next.1 (out ++ next.2) := by
  refine h.perform ?_ h.queue_le ?_ ?_ ?_ <;>
    simp [terminals, starts, TxEvent.terminal?, TxEvent.start?, hs, Stage.inFlight, Stage.due,
      Stage.popped]

theorem restage {stage : Stage} (hdue : stage.due = s.stage.due)
    (hpopped : stage.popped = s.stage.popped) (h : Ledger s out) :
    Ledger { s with stage := stage } (out ++ []) := by
  rw [List.append_nil]
  refine ⟨?_, h.queue_le, ?_, ?_, h.calls⟩
  · rw [hdue, hpopped]
    exact h.conserved
  · rw [Stage.inFlight, hdue, hpopped]
    exact h.inFlight_le
  · rw [hdue]
    exact h.started

theorem step (i : TxStep) (h : Ledger s out) : Ledger (txStep s i).1 (out ++ (txStep s i).2) := by
  generalize hnext : txStep s i = next
  cases hnext ▸ Passes.step (s := s) (i := i) with
  | check payload => exact h.check payload
  | push i => exact h.push i
  | restage _ hdue hpopped => exact h.restage hdue hpopped
  | frameless _ hm hdue hpopped => exact h.perform_frameless hm hdue hpopped
  | drain hs => exact h.drain hs
  | report hs => exact h.report hs
  | pop hs => exact h.pop hs
  | burst io hs => exact h.burst io hs
  | finish hs => exact h.finish hs

end Ledger

theorem run_ledger (io : InitInput) (steps : List TxStep) :
    Ledger (run txStep (.start io) steps).1 (run txStep (.start io) steps).2 :=
  run_history (fun _ _ _ h ↦ Ledger.step _ h) (Ledger.start io)

theorem Stage.inFlight_le_one {stage : Stage} (h : ∀ frames, stage ≠ .reporting frames) :
    stage.inFlight.length ≤ 1 := by
  cases stage with
  | reporting frames => exact absurd rfl (h frames)
  | finishing frame ok => exact Nat.le_refl 1
  | bursting frame => exact Nat.le_refl 1
  | _ => exact Nat.zero_le 1

namespace Ledger

variable {s : TxSystem} {out : List TxEvent}

theorem balance (h : Ledger s out) :
    accepted out = (terminals out).map Prod.fst ++ s.stage.inFlight ++ s.worker.txQ := by
  rw [h.conserved, List.map_append, Stage.inFlight]
  simp only [List.append_assoc]

theorem calls_nodup (h : Ledger s out) : ((answers out).map Prod.fst).Nodup := by
  have hnodup := h.calls.nodup_iff.mpr List.nodup_range
  rw [List.map_append] at hnodup
  exact (List.nodup_append.mp hnodup).1.of_map _

/-- A frame is not answered both ways. -/
theorem not_accepted {frame : TxFrame} (h : Ledger s out) (hrefused : frame ∈ refused out) :
    frame ∉ accepted out := by
  intro haccepted
  have hsame := List.inj_on_of_nodup_map h.calls_nodup (mem_answered.mp haccepted)
    (mem_answered.mp hrefused) rfl
  cases hsame

theorem accepted_nodup (h : Ledger s out) : (accepted out).Nodup :=
  h.calls_nodup.sublist (List.filter_sublist.map _)

theorem terminal_accepted (h : Ledger s out) {p : TxFrame × Terminal}
    (hp : p ∈ terminals out ++ s.stage.due) : p.1 ∈ accepted out := by
  rw [h.conserved, List.append_assoc]
  exact List.mem_append_left _ (List.mem_map_of_mem hp)

theorem start_accepted (h : Ledger s out) {p : TxFrame × Int16} (hp : p ∈ starts out) :
    p.1 ∈ accepted out := by
  obtain ⟨q, hq, hqp⟩ := List.mem_map.mp (h.started p hp)
  exact hqp ▸ h.terminal_accepted hq

end Ledger

/-- Each accepted frame gets its terminal, in the order of acceptance. -/
structure Conserved (s : TxSystem) (out : List TxEvent) : Prop where
  count : (accepted out).length =
    (terminals out).length + s.stage.inFlight.length + s.worker.txQ.length
  order : ∀ (n : ℕ) (frame : TxFrame) (t : Terminal), (terminals out)[n]? = some (frame, t) →
    (accepted out)[n]? = some frame
  once : (accepted out).Nodup
  refused : ∀ frame ∈ refused out,
    (∀ st, (frame, st) ∉ starts out) ∧ ∀ t, (frame, t) ∉ terminals out
  queue_le : s.worker.txQ.length ≤ 16
  /-- Outside of the reports of a drain at most one frame is neither in the
  queue nor finished. -/
  inFlight_le : s.stage.inFlight.length ≤ 16 ∧
    ((∀ frames, s.stage ≠ .reporting frames) → s.stage.inFlight.length ≤ 1)

/-- The terminals of a run are those of its accepted frames, in order. -/
theorem frames_conserved (io : InitInput) (steps : List TxStep) :
    Conserved (run txStep (.start io) steps).1 (run txStep (.start io) steps).2 := by
  have h := run_ledger io steps
  have hbalance := h.balance
  refine ⟨?_, ?_, h.accepted_nodup, ?_, h.queue_le, h.inFlight_le, Stage.inFlight_le_one⟩
  · rw [hbalance]
    simp only [List.length_append, List.length_map]
  · intro n frame t hn
    rw [hbalance, List.append_assoc]
    have hmap : ((terminals (run txStep (.start io) steps).2).map Prod.fst)[n]? = some frame := by
      rw [List.getElem?_map, hn]
      rfl
    obtain ⟨hlt, -⟩ := List.getElem?_eq_some_iff.mp hmap
    rwa [List.getElem?_append_left hlt]
  · intro frame hrefused
    have hnot := h.not_accepted hrefused
    refine ⟨fun st hst ↦ hnot (h.start_accepted hst), fun t ht ↦ hnot ?_⟩
    exact h.terminal_accepted (List.mem_append_left _ ht)

/-- Two frames drained by a cutoff and not yet reported: more than one accepted
frame is neither in the queue nor finished. -/
theorem drained_outstanding :
    let cutoff : ThermalReading := { file := some ⟨2, 2, 85, 0⟩ }
    let last := run txStep (.start {}) [.check [1], .push 0, .check [2], .push 0,
      .tick 4000 cutoff, .enter {}, .drain]
    last.1.stage.inFlight = [⟨0, [1]⟩, ⟨1, [2]⟩] ∧
      (terminals last.2).length + last.1.worker.txQ.length + 1 < (accepted last.2).length :=
  ⟨by decide +kernel, by decide +kernel⟩

end RadioService
