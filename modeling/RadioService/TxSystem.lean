import RadioService.Quiet

/-!
# The transmit queue between its threads

Host threads call into the worker while the worker thread polls.  The locks
cut their functions into sections; here a step is one section, and the sections
of different threads follow one another in any order.  The steps are taken from
the bodies of `enqueueTx`, `thermalTick` and `serviceTxQueue`, cut where a lock
is taken or released.
-/

namespace RadioService

open Burst Traced Machine

/-! ## State -/

/-- Where the worker thread stands. -/
inductive Stage where
  | idle
  /-- A tick has stored a new level and not acted on it. -/
  | entering (prev level : Int)
  /-- The power is cut and the queue is not drained. -/
  | draining
  /-- Drained frames whose terminals are outstanding. -/
  | reporting (frames : List TxFrame)
  /-- Behind the gates of `serviceTxQueue`. -/
  | serving
  /-- A frame popped and not transmitted. -/
  | bursting (frame : TxFrame)
  /-- The burst of a frame is over and its terminal outstanding. -/
  | finishing (frame : TxFrame) (ok : Bool)
deriving DecidableEq

/-- The terminals the worker thread is about to issue. -/
def Stage.due : Stage → List (TxFrame × Terminal)
  | .reporting frames => frames.map (·, .kDropped)
  | .finishing frame ok => [(frame, burstTerminal ok)]
  | _ => []

/-- The frame on its way from the queue to the radio. -/
def Stage.popped : Stage → List TxFrame
  | .bursting frame => [frame]
  | _ => []

/-- The frames out of the queue whose terminals are outstanding. -/
def Stage.inFlight (stage : Stage) : List TxFrame := stage.due.map Prod.fst ++ stage.popped

/-- The worker, the worker thread's stage, the `enqueueTx` calls between their
test and the queue lock, and how many calls there have been. -/
structure TxSystem where
  worker : RadioWorker := {}
  stage : Stage := .idle
  checked : List TxFrame := []
  calls : ℕ := 0
deriving DecidableEq

/-- What can be seen of the system: effects, and answers of `enqueueTx`. -/
inductive TxEvent where
  | effect (e : Effect)
  | answer (frame : TxFrame) (t : Terminal)
deriving DecidableEq

/-! ## Sections -/

/-- Behind the reading: store a new level; the old one and it. -/
def storeLevel (next : Option Int) : Work (Option (Int × Int)) := do
  let w ← read
  match next with
  | none => return none
  | some level =>
    if level ≠ w.thermalLevel then
      setLevel level
      return some (w.thermalLevel, level)
    else
      return none

/-- `thermalTick` up to the storing of a new level. -/
def tickLevel (now : UInt32) (r : ThermalReading) : Work (Option (Int × Int)) := do
  let w ← read
  if !thermalDue w.toSettings now then
    return none
  update fun w ↦ { w with lastThermalCheckMs := now }
  storeLevel (← readLevel r)

/-- What entering a level does to the radio. -/
def enterRadio (prev level : Int) (io : ThermalInput) : Work Unit := do
  if level == 2 then
    cutPower
  else if level == 1 then
    throttle io
  else if level == 0 then
    recover prev io

inductive TxStep where
  /-- A call of `enqueueTx`, up to the queue lock. -/
  | check (payload : List UInt8)
  /-- The rest of the `i`-th call that waits for the queue lock. -/
  | push (i : ℕ)
  | applyConfig (cfg : Config) (io : ConfigInput)
  | startScan (p : ScanParams) (now : UInt32) (freqSt : Int16)
  | scanTick (now : UInt32) (freqSt : Int16)
  /-- A turn of the receive loop. -/
  | receive (i : RxStep) (l : RxLocals)
  | tick (now : UInt32) (r : ThermalReading)
  | enter (io : ThermalInput)
  | drain
  | report
  | gate
  | pop
  | burst (io : BurstInput)
  | finish

/-- The effects of an outcome, as the system shows them. -/
def shown {α : Type} (o : Outcome RadioWorker Effect α) : List TxEvent :=
  o.log.map fun p ↦ .effect p.2

@[simp] theorem shown_mk {α : Type} (a : α) (w : RadioWorker) (l : List (RadioWorker × Effect)) :
    shown ⟨a, w, l⟩ = l.map fun p ↦ .effect p.2 := rfl

@[simp] theorem shown_prepend {α : Type} (l : List (RadioWorker × Effect))
    (o : Outcome RadioWorker Effect α) :
    shown (o.prepend l) = (l.map fun p ↦ .effect p.2) ++ shown o := by
  simp [shown]

namespace TxSystem

/-- The worker runs `m`, and the worker thread goes where its value says. -/
def perform {α : Type} (s : TxSystem) (m : Work α) (next : α → Stage) :
    TxSystem × List TxEvent :=
  ({ s with worker := (m.run s.worker).state, stage := next (m.run s.worker).val },
    shown (m.run s.worker))

def check (s : TxSystem) (payload : List UInt8) : TxSystem × List TxEvent :=
  let frame : TxFrame := ⟨s.calls, payload⟩
  if enqueueRefused s.worker then
    ({ s with calls := s.calls + 1 }, [.answer frame .kBusy])
  else
    ({ s with calls := s.calls + 1, checked := s.checked ++ [frame] }, [])

def push (s : TxSystem) (i : ℕ) : TxSystem × List TxEvent :=
  match s.checked[i]? with
  | none => (s, [])
  | some frame =>
    let o := (pushFrame frame).run s.worker
    ({ s with worker := o.state, checked := s.checked.eraseIdx i }, [.answer frame o.val])

/-- The section the worker thread stands in front of. -/
def work (s : TxSystem) : TxStep → TxSystem × List TxEvent
  | .scanTick now freqSt =>
    if s.stage = .idle then s.perform (RadioService.scanTick now freqSt) fun _ ↦ .idle else (s, [])
  | .receive i l =>
    if s.stage = .idle then s.perform (rxIter i l) fun _ ↦ .idle else (s, [])
  | .tick now r =>
    if s.stage = .idle then
      s.perform (tickLevel now r) fun
        | none => .idle
        | some (prev, level) => .entering prev level
    else (s, [])
  | .enter io =>
    match s.stage with
    | .entering prev level =>
      s.perform (enterRadio prev level io) fun _ ↦ if level == 2 then .draining else .idle
    | _ => (s, [])
  | .drain => if s.stage = .draining then s.perform drainTxQ .reporting else (s, [])
  | .report =>
    match s.stage with
    | .reporting [] => ({ s with stage := .idle }, [])
    | .reporting (frame :: frames) =>
      s.perform (issue (.onTxTerminal frame .kDropped)) fun _ ↦ .reporting frames
    | _ => (s, [])
  | .gate =>
    if s.stage = .idle ∧ txGateClosed s.worker = false then ({ s with stage := .serving }, [])
    else (s, [])
  | .pop =>
    if s.stage = .serving then
      s.perform popFrame fun
        | none => .idle
        | some frame => .bursting frame
    else (s, [])
  | .burst io =>
    match s.stage with
    | .bursting frame => s.perform (burstFrame frame io) (.finishing frame)
    | _ => (s, [])
  | .finish =>
    match s.stage with
    | .finishing frame ok =>
      s.perform (issue (.onTxTerminal frame (burstTerminal ok))) fun _ ↦ .idle
    | _ => (s, [])
  | _ => (s, [])

end TxSystem

/-- One section of any thread. -/
def txStep : Step TxSystem TxStep TxEvent
  | s, .check payload => s.check payload
  | s, .push i => s.push i
  | s, .applyConfig cfg io => s.perform (applyConfig cfg io) fun _ ↦ s.stage
  | s, .startScan p now freqSt => s.perform (startScan p now freqSt) fun _ ↦ s.stage
  | s, i => s.work i

/-- The system behind an `init`, successful or not. -/
def TxSystem.start (io : InitInput) : TxSystem := { worker := ((init 44 io).run {}).state }

/-! ## The functions as sequences of sections -/

/-- From an idle worker thread, some sections in a row do what `m` does. -/
def Sectioned {α : Type} (m : Work α) : Prop :=
  ∀ s : TxSystem, s.stage = .idle → ∃ is, run txStep s is =
    ({ s with worker := (m.run s.worker).state }, shown (m.run s.worker))

namespace Sectioned

variable {α β : Type}

theorem pure (a : α) : Sectioned (Pure.pure a) := fun _ _ ↦ ⟨[], rfl⟩

theorem read : Sectioned read := fun _ _ ↦ ⟨[], rfl⟩

theorem bind {m : Work α} {g : α → Work β} (hm : Sectioned m) (hg : ∀ a, Sectioned (g a)) :
    Sectioned (m >>= g) := by
  intro s hs
  obtain ⟨is, his⟩ := hm s hs
  obtain ⟨js, hjs⟩ := hg (m.run s.worker).val { s with worker := (m.run s.worker).state } hs
  refine ⟨is ++ js, (run_trans his hjs).trans ?_⟩
  simp [shown]

theorem ite {c : Prop} [Decidable c] {m n : Work α} (hm : Sectioned m) (hn : Sectioned n) :
    Sectioned (if c then m else n) := by
  split <;> assumption

/-- A section of its own that leaves the worker thread idle. -/
theorem of_step {m : Work α} {i : TxStep}
    (h : ∀ s : TxSystem, s.stage = .idle → txStep s i = s.perform m fun _ ↦ .idle) :
    Sectioned m := by
  intro s hs
  refine ⟨[i], ?_⟩
  rw [run_cons, h s hs, run_nil, List.append_nil, ← hs]
  rfl

theorem applyConfig (cfg : Config) (io : ConfigInput) : Sectioned (applyConfig cfg io) :=
  of_step (i := .applyConfig cfg io) fun _ hs ↦ by rw [← hs]; rfl

theorem startScan (p : ScanParams) (now : UInt32) (freqSt : Int16) :
    Sectioned (startScan p now freqSt) :=
  of_step (i := .startScan p now freqSt) fun _ hs ↦ by rw [← hs]; rfl

theorem scanTick (now : UInt32) (freqSt : Int16) : Sectioned (scanTick now freqSt) :=
  of_step (i := .scanTick now freqSt) fun _ hs ↦ if_pos hs

theorem rxIter (i : RxStep) (l : RxLocals) : Sectioned (rxIter i l) :=
  of_step (i := .receive i l) fun _ hs ↦ if_pos hs

theorem rxLoop (is : List RxStep) (l : RxLocals) : Sectioned (rxLoop is l) := by
  induction is generalizing l with
  | nil => exact (rxIter _ l).bind fun _ ↦ pure ()
  | cons i is ih =>
      refine (rxIter i l).bind fun next ↦ ?_
      cases next with
      | again l => exact ih l
      | leave => exact pure ()

theorem serviceTxQueue (io : BurstInput) : Sectioned (serviceTxQueue io) := by
  intro s hs
  cases hgate : txGateClosed s.worker
  case true => exact ⟨[], by simp [RadioService.serviceTxQueue, hgate]⟩
  cases hq : s.worker.txQ with
  | nil =>
      refine ⟨[.gate, .pop], ?_⟩
      simp [RadioService.serviceTxQueue, txStep, TxSystem.work, TxSystem.perform, popFrame, hs,
        hgate, hq, shown]
  | cons frame rest =>
      refine ⟨[.gate, .pop, .burst io, .finish], ?_⟩
      simp [RadioService.serviceTxQueue, txStep, TxSystem.work, TxSystem.perform, popFrame, hs,
        hgate, hq, shown]

/-- The terminals of drained frames, one at a time. -/
theorem report_run {s : TxSystem} {frames : List TxFrame} (h : s.stage = .reporting frames) :
    run txStep s (List.replicate (frames.length + 1) .report) =
      ({ s with stage := .idle }, frames.map fun f ↦ .effect (.onTxTerminal f .kDropped)) := by
  induction frames generalizing s with
  | nil => simp [txStep, TxSystem.work, h]
  | cons frame frames ih =>
      have hstep : txStep s .report = ({ s with stage := .reporting frames },
          [.effect (.onTxTerminal frame .kDropped)]) := by
        simp [txStep, TxSystem.work, h, TxSystem.perform]
      exact run_step hstep (ih rfl)

/-- The sections behind the storing of a level. -/
def enterSections (io : ThermalInput) : Option (Int × Int) → Work Unit
  | none => return ()
  | some (prev, level) => do
    enterRadio prev level io
    if level == 2 then
      reportDropped (← drainTxQ)

theorem takeLevel_eq (next : Option Int) (io : ThermalInput) (w : RadioWorker) :
    (takeLevel next io).run w = (storeLevel next >>= enterSections io).run w := by
  cases next with
  | none => rfl
  | some level =>
      by_cases hlevel : level = w.thermalLevel
      · simp [takeLevel, storeLevel, enterSections, hlevel]
      by_cases h2 : level = 2
      · subst h2
        simp [takeLevel, storeLevel, enterSections, enterLevel, enterRadio, setLevel, hlevel]
      · simp [takeLevel, storeLevel, enterSections, enterLevel, enterRadio, setLevel, hlevel, h2]

theorem thermalTick_eq (now : UInt32) (io : ThermalInput) (w : RadioWorker) :
    (thermalTick now io).run w = (tickLevel now io.reading >>= enterSections io).run w := by
  by_cases hdue : thermalDue w.toSettings now = true
  case neg => simp [RadioService.thermalTick, tickLevel, enterSections, hdue]
  simp [RadioService.thermalTick, tickLevel, takeLevel_eq, hdue]

theorem enterSections_run {s : TxSystem} {prev level : Int} (io : ThermalInput)
    (hs : s.stage = .entering prev level) :
    ∃ is, run txStep s is =
      ({ s with
          worker := ((enterSections io (some (prev, level))).run s.worker).state
          stage := .idle },
        shown ((enterSections io (some (prev, level))).run s.worker)) := by
  let w₁ := ((enterRadio prev level io).run s.worker).state
  by_cases h2 : level = 2
  case neg =>
    refine ⟨[.enter io], ?_⟩
    simp [txStep, TxSystem.work, TxSystem.perform, hs, enterSections, h2, shown]
  subst h2
  have henter : txStep s (.enter io) = ({ s with worker := w₁, stage := .draining },
      shown ((enterRadio prev 2 io).run s.worker)) := by
    simp [txStep, TxSystem.work, TxSystem.perform, hs, w₁]
  have hdrain : txStep { s with worker := w₁, stage := .draining } .drain =
      ({ s with worker := (drainTxQ.run w₁).state, stage := .reporting w₁.txQ }, []) := by
    simp [txStep, TxSystem.work, TxSystem.perform, drainTxQ]
  refine ⟨_, (run_step henter (run_step hdrain (report_run rfl))).trans ?_⟩
  simp [enterSections, drainTxQ, reportDropped, w₁, shown]

theorem thermalTick (now : UInt32) (io : ThermalInput) : Sectioned (thermalTick now io) := by
  intro s hs
  rw [thermalTick_eq]
  cases hval : ((tickLevel now io.reading).run s.worker).val with
  | none =>
      refine ⟨[.tick now io.reading], ?_⟩
      simp [txStep, TxSystem.work, TxSystem.perform, hs, hval, enterSections, shown]
  | some levels =>
      obtain ⟨prev, level⟩ := levels
      have htick : txStep s (.tick now io.reading) =
          ({ s with
              worker := ((tickLevel now io.reading).run s.worker).state
              stage := .entering prev level },
            shown ((tickLevel now io.reading).run s.worker)) := by
        simp [txStep, TxSystem.work, TxSystem.perform, hs, hval]
      obtain ⟨is, his⟩ := enterSections_run
        (s := { s with
          worker := ((tickLevel now io.reading).run s.worker).state
          stage := .entering prev level }) io rfl
      refine ⟨.tick now io.reading :: is, (run_step htick his).trans ?_⟩
      simp [hval, hs, shown]

theorem pollOnce (io : PollInput) : Sectioned (pollOnce io) := by
  have hgated : ∀ w : RadioWorker, Sectioned (do
      if !w.scanActive then
        RadioService.serviceTxQueue io.burst : Work Unit) :=
    fun w ↦ (serviceTxQueue io.burst).ite (pure ())
  have hscan : Sectioned (afterScan io) := read.bind fun w ↦ (pure ()).ite <|
    (hgated w).ite <| (rxLoop _ _).bind fun _ ↦ read.bind hgated
  rw [pollOnce_eq]
  exact (thermalTick _ _).bind fun _ ↦ read.bind fun w ↦ (pure ()).ite <|
    ((scanTick _ _).bind fun _ ↦ hscan).ite hscan

/-- A call of `enqueueTx` that nobody comes between. -/
theorem enqueueTx (s : TxSystem) (payload : List UInt8) (hs : s.checked = []) :
    let o := (enqueueTx ⟨s.calls, payload⟩).run s.worker
    ∃ is, run txStep s is =
      ({ s with worker := o.state, calls := s.calls + 1 }, [.answer ⟨s.calls, payload⟩ o.val]) := by
  cases hrefused : enqueueRefused s.worker with
  | true =>
      refine ⟨[.check payload], ?_⟩
      simp [txStep, TxSystem.check, RadioService.enqueueTx, hrefused]
  | false =>
      refine ⟨[.check payload, .push 0], ?_⟩
      simp [txStep, TxSystem.check, TxSystem.push, RadioService.enqueueTx, hrefused, hs]

end Sectioned

end RadioService
