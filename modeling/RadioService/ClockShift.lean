import Mathlib.Data.UInt
import RadioService.Machine.Mirrors
import RadioService.WorkerRun

/-!
# The worker on a shifted clock

The worker compares clock readings by their differences only.  On a clock that is ahead by
a constant, with the end of the dwell moved along, it does the same.  The thermal guard
tells a first check from a later one by the value of its timer; whether the guard is due
is an input here.
-/

namespace RadioService

open Burst Traced

/-! ## The same readings on another clock -/

namespace RxStep

/-- The answers of a turn on a clock that is ahead by `c`. -/
def delayed (c : UInt32) (i : RxStep) : RxStep :=
  { i with
    idleNow := c + i.idleNow, burstNow := c + i.burstNow, afterNow := c + i.afterNow
    deadlineNow := c + i.deadlineNow }

end RxStep

def TxPoll.delayed (c : UInt32) (p : TxPoll) : TxPoll := { p with now := c + p.now }

def Attempt.delayed (c : UInt32) (a : Attempt) : Attempt :=
  { a with startMs := c + a.startMs, polls := a.polls.map (·.delayed c) }

/-- The burst id is computed from another clock. -/
def BurstInput.delayed (c : UInt32) (io : BurstInput) : BurstInput :=
  { io with attempt := fun idx k ↦ (io.attempt idx k).delayed c }

def PollInput.delayed (c : UInt32) (io : PollInput) : PollInput :=
  { io with
    nowMs := c + io.nowMs, rx := io.rx.map (·.delayed c), burst := io.burst.delayed c }

/-- The worker with the end of the dwell moved along, and the thermal timer anyhow. -/
def RadioWorker.retimed (c : UInt32) (check : UInt32 → UInt32) (w : RadioWorker) : RadioWorker :=
  { w with
    scanDwellUntil := c + w.scanDwellUntil, lastThermalCheckMs := check w.lastThermalCheckMs }

theorem before_delayed (c now deadline : UInt32) :
    before (c + now) (c + deadline) = before now deadline := by
  rw [before, before, add_sub_add_left_eq_sub]

/-- `m'` on the shifted clock does what `m` does. -/
abbrev Shifted (c : UInt32) (check : UInt32 → UInt32) {α : Type} (m m' : Work α) : Prop :=
  Mirrors (RadioWorker.retimed c check) Eq m m'

/-- `m` looks at no clock. -/
abbrev Untimed (c : UInt32) (check : UInt32 → UInt32) {α : Type} (m : Work α) : Prop :=
  Shifted c check m m

namespace Shifted

variable {c : UInt32} {check : UInt32 → UInt32}

/-! ## Configuration -/

theorem call (op : RadioOp) : Untimed c check (radioCall op) := Mirrors.issue _

theorem standby : Untimed c check standby :=
  (call _).andThen fun _ ↦ Mirrors.update fun _ ↦ rfl

theorem startReceive : Untimed c check startReceive :=
  (call _).andThen fun _ ↦ Mirrors.update fun _ ↦ rfl

theorem armReceive : Untimed c check armReceive :=
  Mirrors.reading fun _ ↦ Mirrors.ite (Mirrors.pure rfl) <|
    startReceive.andThen fun _ ↦ Mirrors.update fun _ ↦ rfl

theorem setFrequency (hz : UInt32) (st : Int16) :
    Untimed c check (setFrequency hz st) :=
  (call _).andThen fun _ ↦
    Mirrors.ite (Mirrors.updating (fun _ ↦ rfl) (Mirrors.pure rfl)) (Mirrors.pure rfl)

theorem setOutputPower (dbm : Int8) (st : Int16) :
    Untimed c check (setOutputPower dbm st) :=
  (call _).andThen fun _ ↦
    Mirrors.ite (Mirrors.updating (fun _ ↦ rfl) (Mirrors.pure rfl)) (Mirrors.pure rfl)

theorem armed {α : Type} (a : α) : Untimed c check (RadioService.armReceive >>= fun _ ↦ pure a) :=
  armReceive.andThen fun _ ↦ Mirrors.pure rfl

theorem applyConfig (cfg : Config) (io : ConfigInput) :
    Untimed c check (applyConfig cfg io) := by
  have hrest : ∀ (clamped : Config) (prev : Int8) (st : Int16), Untimed c check (do
      if st ≠ errNone then
        RadioService.armReceive
        return .error "set frequency failed"
      if clamped.txPowerDbm ≠ prev then
        discard (RadioService.setOutputPower clamped.txPowerDbm io.powerSt)
      RadioService.armReceive
      return .ok () : Work (Except String Unit)) := fun clamped prev st ↦
    Mirrors.ite (armed _) <| Mirrors.ite
      ((setOutputPower _ _).discard.andThen fun _ ↦ armed _) (armed _)
  have hretune : ∀ (clamped : Config) (prev : Int8),
      Untimed c check (retune clamped prev io) := fun clamped prev ↦
    Mirrors.ite ((setFrequency _ _).andThen (hrest clamped prev))
      (Mirrors.andThen (Mirrors.pure rfl) (hrest clamped prev))
  exact Mirrors.reading fun _ ↦ Mirrors.ite (Mirrors.pure rfl) <| Mirrors.ite (Mirrors.pure rfl) <|
    Mirrors.updating (fun _ ↦ rfl) <| standby.andThen fun _ ↦ hretune _ _

/-! ## Scans -/

theorem beginScan (p : ScanParams) (now : UInt32) (freqSt : Int16) :
    Shifted c check (beginScan p now freqSt) (beginScan p (c + now) freqSt) := by
  refine Mirrors.updating (fun w ↦ ?_) <| Mirrors.reading fun _ ↦ Mirrors.ite ?_ (Mirrors.pure rfl)
  · simp [RadioWorker.retimed, add_assoc]
  · exact standby.andThen fun _ ↦ (setFrequency _ _).discard.andThen fun _ ↦
      Mirrors.updating (fun _ ↦ rfl) armReceive

theorem startScan (p : ScanParams) (now : UInt32) (freqSt : Int16) :
    Shifted c check (startScan p now freqSt) (startScan p (c + now) freqSt) :=
  Mirrors.reading fun _ ↦ Mirrors.ite
    (Mirrors.updating (fun _ ↦ rfl) (beginScan p now freqSt)) (beginScan p now freqSt)

theorem endScan (freqSt : Int16) : Untimed c check (endScan freqSt) :=
  Mirrors.updating (fun _ ↦ rfl) <| Mirrors.reading fun _ ↦ Mirrors.ite
    (standby.andThen fun _ ↦ (setFrequency _ _).discard.andThen fun _ ↦
      Mirrors.updating (fun _ ↦ rfl) armReceive) armReceive

theorem nextChannel (now : UInt32) (freqSt : Int16) :
    Shifted c check (nextChannel now freqSt) (nextChannel (c + now) freqSt) := by
  refine Mirrors.reading fun _ ↦ standby.andThen fun _ ↦ (setFrequency _ _).discard.andThen fun _ ↦
    Mirrors.updating (fun w ↦ ?_) armReceive
  simp [RadioWorker.retimed, channelHz, add_assoc]

/-- The tick sees how far away the end of the dwell is. -/
theorem scanTick (now : UInt32) (freqSt : Int16) :
    Shifted c check (scanTick now freqSt) (scanTick (c + now) freqSt) := by
  refine Mirrors.reading fun w ↦ ?_
  have hdwell : before (c + now) (w.retimed c check).scanDwellUntil =
      before now w.scanDwellUntil := before_delayed c now _
  rw [hdwell]
  exact Mirrors.ite (Mirrors.pure rfl) <| (Mirrors.issue _).andThen fun _ ↦
    Mirrors.updating (fun _ ↦ rfl) <| Mirrors.reading fun _ ↦
      Mirrors.ite (endScan freqSt) (nextChannel now freqSt)

/-! ## Transmission -/

theorem enqueueTx (frame : TxFrame) : Untimed c check (enqueueTx frame) := by
  have hpush : Untimed c check (pushFrame frame) :=
    Mirrors.reading fun _ ↦ Mirrors.ite (Mirrors.updating (fun _ ↦ rfl) (Mirrors.pure rfl))
      (Mirrors.updating (fun _ ↦ rfl) (Mirrors.pure rfl))
  exact Mirrors.reading fun _ ↦ Mirrors.ite (Mirrors.pure rfl) hpush

theorem waitTxDone (deadline : UInt32) (polls : List TxPoll) :
    Shifted c check (waitTxDone deadline polls)
      (waitTxDone (c + deadline) (polls.map (·.delayed c))) := by
  induction polls with
  | nil => exact Mirrors.pure rfl
  | cons p ps ih =>
      simp only [RadioService.waitTxDone, List.map_cons, TxPoll.delayed, before_delayed]
      exact Mirrors.ite ((call _).andThen fun _ ↦ Mirrors.ite (Mirrors.pure rfl) <|
        Mirrors.ite (Mirrors.pure rfl) ih) (Mirrors.pure rfl)

theorem tryPacket (frame : TxFrame) (pkt : List UInt8) (attempt : ℕ → Attempt) (k n : ℕ) :
    Shifted c check (tryPacket frame pkt attempt k n)
      (tryPacket frame pkt (fun k ↦ (attempt k).delayed c) k n) := by
  induction n generalizing k with
  | zero => exact Mirrors.pure rfl
  | succ n ih =>
      have hwait : Shifted c check
          (RadioService.waitTxDone ((attempt k).startMs + 25) (attempt k).polls)
          (RadioService.waitTxDone (((attempt k).delayed c).startMs + 25)
            ((attempt k).delayed c).polls) := by
        rw [Attempt.delayed, add_assoc]
        exact waitTxDone _ _
      have hstart : Untimed c check (startTransmit frame pkt (attempt k).st) :=
        (call _).andThen fun _ ↦ Mirrors.updating (fun _ ↦ rfl) (Mirrors.pure rfl)
      have hfinish : Untimed c check finishTransmit :=
        (call _).andThen fun _ ↦ Mirrors.update fun _ ↦ rfl
      have hrest : Shifted c check (do
          let st ← startTransmit frame pkt (attempt k).st
          if st ≠ errNone then
            RadioService.tryPacket frame pkt attempt (k + 1) n
          else
            let done ← RadioService.waitTxDone ((attempt k).startMs + 25) (attempt k).polls
            finishTransmit
            if done then
              return true
            else
              RadioService.tryPacket frame pkt attempt (k + 1) n) _ :=
        hstart.andThen fun _ ↦ Mirrors.ite (ih (k + 1)) <| hwait.andThen fun _ ↦
          hfinish.andThen fun _ ↦ Mirrors.ite (Mirrors.pure rfl) (ih (k + 1))
      exact Mirrors.ite (standby.andThen fun _ ↦ hrest) hrest

theorem sendPackets (frame : TxFrame) (id total : UInt16) (crc : UInt32)
    (attempt : ℕ → ℕ → Attempt) (idx n : ℕ) :
    Shifted c check (sendPackets frame id total crc attempt idx n)
      (sendPackets frame id total crc (fun idx k ↦ (attempt idx k).delayed c) idx n) := by
  induction n generalizing idx with
  | zero => exact Mirrors.pure rfl
  | succ n ih =>
      exact (tryPacket frame _ _ _ _).andThen fun _ ↦ Mirrors.ite (Mirrors.pure rfl) <|
        Mirrors.updating (fun _ ↦ rfl) (ih (idx + 1))

theorem serviceTxQueue (io : BurstInput) :
    Shifted c check (serviceTxQueue io) (serviceTxQueue (io.delayed c)) := by
  have hburst : ∀ frame, Shifted c check (transmitBurst frame io)
      (transmitBurst frame (io.delayed c)) := fun frame ↦
    Mirrors.ite (Mirrors.pure rfl) <| Mirrors.reading fun _ ↦
      Mirrors.updating (fun _ ↦ rfl) (sendPackets frame _ _ _ _ _ _)
  have hframe : ∀ frame, Shifted c check (burstFrame frame io)
      (burstFrame frame (io.delayed c)) := fun frame ↦
    standby.andThen fun _ ↦ Mirrors.updating (fun _ ↦ rfl) <| (hburst frame).andThen fun _ ↦
      Mirrors.updating (fun _ ↦ rfl) (armed _)
  have hpop : Untimed c check popFrame := by
    refine Mirrors.reading fun w ↦ ?_
    have hq : (w.retimed c check).txQ = w.txQ := rfl
    rw [hq]
    cases w.txQ with
    | nil => exact Mirrors.pure rfl
    | cons frame rest => exact Mirrors.updating (fun _ ↦ rfl) (Mirrors.pure rfl)
  refine Mirrors.reading fun _ ↦ Mirrors.ite (Mirrors.pure rfl) (hpop.andThen fun frame ↦ ?_)
  cases frame with
  | none => exact Mirrors.pure rfl
  | some frame => exact (hframe frame).andThen fun _ ↦ Mirrors.issue _

/-! ## The receive loop -/

/-- The locals of the loop on the shifted clock. The deadline means nothing outside a burst. -/
structure Locals (c : UInt32) (l l' : RxLocals) : Prop where
  inBurst : l'.inBurst = l.inBurst
  queue : l'.queue = l.queue
  check : l'.checkFifoAfterRx = l.checkFifoAfterRx
  deadline : l.inBurst = true → l'.burstDeadlineMs = c + l.burstDeadlineMs

/-- What follows a turn on the shifted clock. -/
inductive Next (c : UInt32) : RxNext → RxNext → Prop
  | again {l l' : RxLocals} (h : Locals c l l') : Next c (.again l) (.again l')
  | leave : Next c .leave .leave

/-- What a look at the radio or a read returns on the shifted clock. -/
abbrev With {α : Type} (c : UInt32) (a b : α × RxLocals) : Prop := a.1 = b.1 ∧ Locals c a.2 b.2

theorem deliver (ps : List (Packet × Int16)) : Untimed c check (deliver ps) :=
  Mirrors.issueAll _

variable {l l' : RxLocals}

theorem rxSense (i : RxStep) (h : Locals c l l') :
    Mirrors (RadioWorker.retimed c check) (With c) (rxSense i l) (rxSense (i.delayed c) l') := by
  obtain ⟨hburst, hqueue, hcheck, hdeadline⟩ := h
  have hplain : Locals c { l with checkFifoAfterRx := false }
      { l' with inBurst := l.inBurst, checkFifoAfterRx := false } :=
    ⟨rfl, hqueue, rfl, hdeadline⟩
  have hopened : Locals c
      { l with checkFifoAfterRx := false, inBurst := true, burstDeadlineMs := i.idleNow + 4 }
      { l' with
        checkFifoAfterRx := false, inBurst := true, burstDeadlineMs := c + i.idleNow + 4 } :=
    ⟨rfl, hqueue, rfl, fun _ ↦ add_assoc _ _ _⟩
  unfold RadioService.rxSense
  rw [hcheck, hburst]
  exact (call _).andThen fun _ ↦ Mirrors.ite
    ((call _).andThen fun _ ↦ Mirrors.ite (Mirrors.pure ⟨rfl, hplain⟩) <|
      Mirrors.ite (Mirrors.pure ⟨rfl, hopened⟩) (Mirrors.pure ⟨rfl, hplain⟩))
    (Mirrors.pure ⟨rfl, hplain⟩)

theorem rxRead (i : RxStep) (h : Locals c l l') :
    Mirrors (RadioWorker.retimed c check) (With c) (rxRead i l) (rxRead (i.delayed c) l') := by
  have hclosed : Locals c { l with inBurst := false } { l' with inBurst := false } :=
    ⟨rfl, h.queue, h.check, nofun⟩
  have hgone : Mirrors (ε := Effect) (RadioWorker.retimed c check) (With c)
      (pure (none, { l with inBurst := false }))
      (pure ((none : Option (Packet × Int16)), { l' with inBurst := false })) :=
    Mirrors.pure ⟨rfl, hclosed⟩
  refine (call _).andThen fun _ ↦ Mirrors.ite ?_ (Mirrors.ite ?_ ?_)
  · refine Mirrors.updating (fun w ↦ ?_) <| (call _).andThen fun _ ↦
      armReceive.andThen fun _ ↦ hgone
    change (if irqHas i.irq irqCrcError then countCrcError else countLengthError) _ = _
    split <;> rfl
  · exact Mirrors.ite ((call _).andThen fun _ ↦ armReceive.andThen fun _ ↦ hgone) hgone
  · refine (call _).andThen fun _ ↦ (call _).andThen fun _ ↦ Mirrors.ite ?_ ?_
    · exact Mirrors.updating (fun _ ↦ rfl) (Mirrors.pure ⟨rfl, h⟩)
    · exact armReceive.andThen fun _ ↦ hgone

theorem rxIdle (i : RxStep) (h : Locals c l l') :
    Mirrors (RadioWorker.retimed c check) (With c) (rxIdle i l) (rxIdle (i.delayed c) l') := by
  refine Mirrors.ite ?_ (Mirrors.pure ⟨rfl, h⟩)
  refine Mirrors.updating (fun w ↦ ?_) <| armReceive.andThen fun _ ↦
    Mirrors.pure ⟨rfl, rfl, h.queue, h.check, nofun⟩
  change (if irqHas i.irq irqCrcError then countCrcError
    else if irqHas i.irq irqLenError then countLengthError else id) _ = _
  split
  · rfl
  · split <;> rfl

theorem rxTail (i : RxStep) (h : Locals c l l') :
    Mirrors (RadioWorker.retimed c check) (Next c) (rxTail i l) (rxTail (i.delayed c) l') := by
  have hwaits : (l'.inBurst && before (c + i.deadlineNow) l'.burstDeadlineMs) =
      (l.inBurst && before i.deadlineNow l.burstDeadlineMs) := by
    rw [h.inBurst]
    cases hopen : l.inBurst with
    | false => rw [Bool.false_and, Bool.false_and]
    | true => rw [h.deadline hopen, before_delayed]
  have hflush : Mirrors (RadioWorker.retimed c check) (Next c) (do
      RadioService.deliver l.queue
      return RxNext.leave) (do
      RadioService.deliver l.queue
      return RxNext.leave) := (deliver _).andThen fun _ ↦ Mirrors.pure .leave
  unfold RadioService.rxTail
  rw [RxStep.delayed, hwaits, h.inBurst, h.queue]
  refine Mirrors.ite (Mirrors.pure (.again h)) (Mirrors.ite ?_ hflush)
  exact (call _).andThen fun _ ↦ armReceive.andThen fun _ ↦ Mirrors.updating (fun _ ↦ rfl) hflush

theorem rxPacket (i : RxStep) (p : Packet × Int16) (h : Locals c l l') :
    Mirrors (RadioWorker.retimed c check) (Next c) (rxPacket i p l)
      (rxPacket (i.delayed c) p l') := by
  unfold RadioService.rxPacket
  cases decodeHeader p.1.bytes with
  | none =>
      exact (call _).andThen fun _ ↦ armReceive.andThen fun _ ↦
        Mirrors.updating (fun _ ↦ rfl) (Mirrors.pure .leave)
  | some hdr =>
      have hagain : ∀ (now d : UInt32) (parked : List (Packet × Int16)),
          Mirrors (ε := Effect) (RadioWorker.retimed c check) (Next c)
            (pure (.again { l with inBurst := true, burstDeadlineMs := now + d, queue := parked }))
            (pure (.again { l' with
              inBurst := true, burstDeadlineMs := c + now + d, queue := parked })) :=
        fun now d parked ↦
          Mirrors.pure (.again ⟨rfl, rfl, h.check, fun _ ↦ add_assoc _ _ _⟩)
      dsimp only
      rw [h.queue]
      refine Mirrors.ite (Mirrors.updating (fun _ ↦ rfl) (hagain _ _ _)) ?_
      refine Mirrors.updating (fun _ ↦ rfl) <| Mirrors.updating (fun _ ↦ rfl) <|
        (deliver _).andThen fun _ ↦ (call _).andThen fun _ ↦
          Mirrors.ite (hagain _ _ _) (Mirrors.ite (hagain _ _ _) ?_)
      exact (call _).andThen fun _ ↦ rxTail i ⟨rfl, rfl, h.check, nofun⟩

theorem rxIter (i : RxStep) (h : Locals c l l') :
    Mirrors (RadioWorker.retimed c check) (Next c) (rxIter i l) (rxIter (i.delayed c) l') := by
  refine (rxSense i h).bind ?_
  rintro ⟨pending, l₁⟩ ⟨_, l₂⟩ ⟨rfl, hl⟩
  refine Mirrors.ite ((rxRead i hl).bind ?_) ((rxIdle i hl).bind ?_)
  all_goals
    rintro ⟨got, l₁⟩ ⟨_, l₂⟩ ⟨rfl, hl⟩
    cases got with
    | some p => exact rxPacket i p ⟨hl.inBurst, hl.queue, rfl, hl.deadline⟩
    | none => exact rxTail i hl

/-- Outside a burst the silent turn at the end looks at no clock. -/
theorem rxLoop_closed (hclosed : l.inBurst = false) (w : RadioWorker) :
    (RadioService.rxLoop [] l).run w =
      ⟨(), w, (w, .radio (.getClearIrqStatus 0)) :: (w, .radio (.getRxFifoLevel 0)) ::
        l.queue.map fun p ↦ (w, .onRxPacket p.1 p.2)⟩ := by
  have hrx : irqHas 0 irqRxDone = false := by decide
  have herr : irqHas 0 (packetErrors ||| irqTimeout) = false := by decide
  have hnone : irqHas 0 (irqCrcError ||| irqLenError ||| irqTimeout) = false := by decide
  have hshort : ¬(0 : UInt16) ≥ kPacketPayload := by decide
  simp [RadioService.rxLoop, RadioService.rxIter, RadioService.rxSense, RadioService.rxIdle,
    RadioService.rxTail, RadioService.deliver, radioCall, RxStep.silent, hrx, herr, hnone, hshort,
    hclosed]

theorem rxLoop (is : List RxStep) (h : Locals c l l') :
    Shifted c check (rxLoop is l) (rxLoop (is.map (·.delayed c)) l') := by
  induction is generalizing l l' with
  | nil =>
      cases hopen : l.inBurst with
      | true =>
          have hsilent : RxStep.silent l'.burstDeadlineMs =
              (RxStep.silent l.burstDeadlineMs).delayed c := by
            rw [h.deadline hopen]
            rfl
          have hlast : Mirrors (RadioWorker.retimed c check) (Next c)
              (RadioService.rxIter (RxStep.silent l.burstDeadlineMs) l)
              (RadioService.rxIter ((RxStep.silent l.burstDeadlineMs).delayed c) l') :=
            rxIter _ h
          rw [← hsilent] at hlast
          exact hlast.bind fun _ _ _ ↦ Mirrors.pure rfl
      | false =>
          intro w
          rw [List.map_nil, rxLoop_closed hopen, rxLoop_closed (h.inBurst.trans hopen), h.queue]
          refine ⟨rfl, rfl, ?_⟩
          simp [Function.comp_def]
  | cons i is ih =>
      refine (rxIter i h).bind ?_
      rintro _ _ (⟨hl⟩ | _)
      · exact ih hl
      · exact Mirrors.pure rfl

/-! ## The poll behind the thermal guard -/

theorem afterScan (io : PollInput) :
    Shifted c check (afterScan io) (afterScan (io.delayed c)) := by
  have hgated : ∀ active : Bool, Shifted c check (do
      if !active then
        RadioService.serviceTxQueue io.burst : Work Unit) (do
      if !active then
        RadioService.serviceTxQueue (io.burst.delayed c) : Work Unit) := fun _ ↦
    Mirrors.ite (serviceTxQueue io.burst) (Mirrors.pure rfl)
  have hstart : Locals c {} {} := ⟨rfl, rfl, rfl, nofun⟩
  exact Mirrors.reading fun w ↦ Mirrors.ite (Mirrors.pure rfl) <|
    Mirrors.ite (hgated w.scanActive) <|
    (rxLoop io.rx hstart).andThen fun _ ↦ Mirrors.reading fun w ↦ hgated w.scanActive

theorem afterTick (io : PollInput) :
    Shifted c check (afterTick io) (afterTick (io.delayed c)) :=
  Mirrors.reading fun _ ↦ Mirrors.ite (Mirrors.pure rfl) <| Mirrors.ite
    ((scanTick io.nowMs io.scanFreqSt).andThen fun _ ↦ afterScan io) (afterScan io)

/-! ## The thermal guard -/

theorem readLevel (r : ThermalReading) : Untimed c check (readLevel r) := by
  have hpm : Untimed c check initPm :=
    Mirrors.reading fun _ ↦ Mirrors.ite ((Mirrors.issue _).andThen fun _ ↦
      Mirrors.update fun _ ↦ rfl) (Mirrors.pure rfl)
  have hsensor : ∀ t, Untimed c check (sensorTick t) := fun t ↦ by
    have hstage : ∀ w : RadioWorker, Untimed c check (do
        if nextDvfs w.cpuDvfsStage t ≠ w.cpuDvfsStage then
          Traced.issue (.setCpuStage (nextDvfs w.cpuDvfsStage t))
        update fun w ↦ { w with
          fanOn := nextFan w.fanOn t, cpuDvfsStage := nextDvfs w.cpuDvfsStage t }
        return sensorLevel w.thermalLevel t : Work Int) := fun w ↦
      Mirrors.ite ((Mirrors.issue _).andThen fun _ ↦
        Mirrors.updating (fun _ ↦ rfl) (Mirrors.pure rfl))
        (Mirrors.updating (fun _ ↦ rfl) (Mirrors.pure rfl))
    exact Mirrors.reading fun w ↦
      Mirrors.ite ((Mirrors.issue _).andThen fun _ ↦ hstage w) (hstage w)
  unfold RadioService.readLevel
  cases r.file.filter (·.fresh r.nowSec) with
  | some f => exact Mirrors.pure rfl
  | none =>
      refine hpm.andThen fun _ ↦ ?_
      cases r.sensor.filter validTemp with
      | none => exact Mirrors.pure rfl
      | some t => exact (hsensor t).andThen fun _ ↦ Mirrors.pure rfl

theorem init (gpio : ℕ) (io : InitInput) : Untimed c check (init gpio io) := by
  have hbegin : Untimed c check (beginFLRC io) :=
    (call _).andThen fun _ ↦ Mirrors.ite (Mirrors.pure rfl) <| (setFrequency _ _).andThen fun _ ↦
      Mirrors.ite (Mirrors.pure rfl) <| (call _).andThen fun _ ↦
        Mirrors.ite (Mirrors.pure rfl) (setOutputPower _ _)
  exact Mirrors.updating (fun _ ↦ rfl) <| (Mirrors.issue _).andThen fun _ ↦
    (Mirrors.issue _).andThen fun _ ↦ hbegin.andThen fun _ ↦
      Mirrors.ite (Mirrors.updating (fun _ ↦ rfl) (Mirrors.pure rfl)) <| (call _).andThen fun _ ↦
        Mirrors.updating (fun _ ↦ rfl) <| armReceive.andThen fun _ ↦
          Mirrors.updating (fun _ ↦ rfl) (Mirrors.pure rfl)

theorem repower (dbm : Int8) (st : Int16) : Untimed c check (do
    RadioService.standby
    discard (RadioService.setOutputPower dbm st)
    RadioService.armReceive) :=
  standby.andThen fun _ ↦ (setOutputPower dbm st).discard.andThen fun _ ↦ armReceive

theorem enterLevel (prev level : Int) (io : ThermalInput) :
    Untimed c check (enterLevel prev level io) := by
  have hoff : ∀ gpio : ℕ, Untimed c check (do
      Traced.issue (.powerSet 42 true)
      Traced.issue (.powerSet gpio false)
      update fun w ↦ { w with thermalPoweredDown := true } : Work Unit) := fun gpio ↦
    (Mirrors.issue _).andThen fun _ ↦ (Mirrors.issue _).andThen fun _ ↦ Mirrors.update fun _ ↦ rfl
  have hcut : Untimed c check cutPower :=
    Mirrors.reading fun w ↦ Mirrors.ite (standby.andThen fun _ ↦ hoff _) (hoff _)
  have hdrain : Untimed c check (drainTxQ >>= reportDropped) :=
    Mirrors.andThen (Mirrors.reading fun _ ↦ Mirrors.updating (fun _ ↦ rfl) (Mirrors.pure rfl))
      fun _ ↦ Mirrors.issueAll _
  have hrevive : Untimed c check (reviveRadio io) :=
    Mirrors.reading fun _ ↦ (init _ _).andThen fun _ ↦
      Mirrors.ite (Mirrors.updating (fun _ ↦ rfl) (applyConfig _ _).discard) (Mirrors.pure rfl)
  have hrecover : Untimed c check (recover prev io) :=
    Mirrors.reading fun _ ↦ Mirrors.ite hrevive (Mirrors.ite (repower _ _) (Mirrors.pure rfl))
  have hthrottle : Untimed c check (throttle io) :=
    Mirrors.reading fun _ ↦ Mirrors.ite (repower _ _) (Mirrors.pure rfl)
  exact Mirrors.updating (fun _ ↦ rfl) <| Mirrors.ite (hcut.andThen fun _ ↦ hdrain) <|
    Mirrors.ite hthrottle (Mirrors.ite hrecover (Mirrors.pure rfl))

theorem takeLevel (next : Option Int) (io : ThermalInput) :
    Untimed c check (takeLevel next io) := by
  refine Mirrors.reading fun _ ↦ ?_
  cases next with
  | none => exact Mirrors.pure rfl
  | some level => exact Mirrors.ite (enterLevel _ _ io) (Mirrors.pure rfl)

end Shifted

/-! ## The poll -/

def checkThermal (io : ThermalInput) : Work Unit := do
  takeLevel (← readLevel io.reading) io

/-- `pollOnce`, told whether the thermal guard is due. -/
def timedPoll (due : Bool) (io : PollInput) : Work Unit := do
  if due then
    checkThermal io.thermal
  afterTick io

theorem Shifted.timedPoll (c : UInt32) (check : UInt32 → UInt32) (due : Bool) (io : PollInput) :
    Shifted c check (timedPoll due io) (timedPoll due (io.delayed c)) :=
  Mirrors.ite (((readLevel _).andThen fun _ ↦ takeLevel _ _).andThen fun _ ↦ afterTick io)
    (afterTick io)

theorem RxStep.delayed_zero : RxStep.delayed 0 = id := by
  funext i
  simp [RxStep.delayed]

theorem PollInput.delayed_zero (io : PollInput) : io.delayed 0 = io := by
  have hpoll : TxPoll.delayed 0 = id := by
    funext p
    simp [TxPoll.delayed]
  simp [PollInput.delayed, BurstInput.delayed, Attempt.delayed, RxStep.delayed_zero, hpoll]

/-- A poll is a timed poll, from a worker that differs in the thermal timer at most. -/
theorem pollOnce_timed (io : PollInput) (w : RadioWorker) (check : UInt32 → UInt32) :
    let w' := w.retimed 0 check
    ∃ check', ((pollOnce io).run w').state =
        ((timedPoll (thermalDue w'.toSettings io.nowMs) io).run w).state.retimed 0 check' ∧
      ((pollOnce io).run w').events =
        ((timedPoll (thermalDue w'.toSettings io.nowMs) io).run w).events := by
  intro w'
  cases hdue : thermalDue w'.toSettings io.nowMs with
  | false =>
      have hrun : (pollOnce io).run w' = (timedPoll false io).run w' := by
        simp [pollOnce_eq, thermalTick, timedPoll, hdue]
      obtain ⟨-, hstate, hevents⟩ := Shifted.timedPoll 0 check false io w
      rw [PollInput.delayed_zero] at hstate hevents
      rw [hrun]
      exact ⟨check, hstate, hevents⟩
  | true =>
      let now : UInt32 → UInt32 := fun _ ↦ io.nowMs
      have hrun : (pollOnce io).run w' = (timedPoll true io).run (w.retimed 0 now) := by
        simp [pollOnce_eq, thermalTick, timedPoll, checkThermal, hdue]
        rfl
      obtain ⟨-, hstate, hevents⟩ := Shifted.timedPoll 0 now true io w
      rw [PollInput.delayed_zero] at hstate hevents
      rw [hrun]
      exact ⟨now, hstate, hevents⟩

end RadioService
