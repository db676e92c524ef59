import RadioService.RxFifo

/-!
# The modes of the chip

The chip stands by, receives or sends.  It is tuned and told to send only while it
stands by, and while it sends it is asked for its interrupts and nothing else, until
the transmission is finished.  A `startTransmit` that reports an error may have left
the chip in any mode; it is not tuned before the next standby.
-/

namespace RadioService

open Burst Machine

open Traced hiding run

/-! ## The monitor -/

inductive ChipPhase where
  | standby
  | receiving
  | sending
  | unsure
deriving DecidableEq

/-- Calls that are made in standby only. -/
def RadioOp.tunes : RadioOp → Bool
  | .calibrate _ | .applyProfile | .setFrequency _ _ | .setOutputPower _ _
  | .startTransmit _ _ _ => true
  | _ => false

/-- Calls that are made of a chip that sends. -/
def RadioOp.awaits : RadioOp → Bool
  | .getClearIrqStatus _ | .finishTransmit => true
  | _ => false

namespace ChipPhase

def next (phase : ChipPhase) : RadioOp → ChipPhase
  | .beginCommon _ | .standby | .finishTransmit => .standby
  | .startReceive => .receiving
  | .startTransmit _ _ st => if st = errNone then .sending else .unsure
  | _ => phase

def Allows (phase : ChipPhase) (op : RadioOp) : Prop :=
  (phase = .sending → op.awaits = true) ∧ (op.tunes = true → phase = .standby)

end ChipPhase

def chipMonitor : Monitor ChipPhase RadioOp where
  next := ChipPhase.next
  Allows := ChipPhase.Allows

/-- The monitor beside the worker. -/
abbrev chipGuard : Monitor ChipPhase Effect := chipMonitor.on Effect.op?

/-- From `P`, the calls of `m` respect the modes, and it ends with `Q`. -/
abbrev Modal {α : Type} (P : ChipPhase → Prop) (m : Work α) (Q : α → ChipPhase → Prop) : Prop :=
  chipGuard.Guards (fun _ ↦ P) m fun a _ ↦ Q a

/-- Between its calls the worker does not send. -/
abbrev AtRest {α : Type} (m : Work α) : Prop := Modal (· ≠ .sending) m fun _ ↦ (· ≠ .sending)

namespace Modal

variable {α β : Type} {P S : ChipPhase → Prop} {Q Q' : α → ChipPhase → Prop}
  {R : β → ChipPhase → Prop}

theorem conseq {m : Work α} (hm : Modal P m Q) (hP : ∀ phase, S phase → P phase)
    (hQ : ∀ a phase, Q a phase → Q' a phase) : Modal S m Q' :=
  Monitor.Guards.conseq hm (fun _ ↦ hP) fun a _ ↦ hQ a

/-- In standby the worker does not send. -/
theorem of_rest {m : Work α} (hm : Modal (· ≠ .sending) m Q) : Modal (· = .standby) m Q :=
  hm.conseq (fun _ h ↦ h ▸ nofun) fun _ _ h ↦ h

theorem call {op : RadioOp} {m : Work β}
    (hop : ∀ phase, P phase → phase.Allows op ∧ S (phase.next op)) (hm : Modal S m R) :
    Modal P (radioCall op >>= fun _ ↦ m) R := by
  refine Monitor.Guards.issue (fun _ phase hP ↦ ⟨fun op' hop' ↦ ?_, (hop phase hP).2⟩) hm
  cases hop'
  exact (hop phase hP).1

theorem update {u : RadioWorker → RadioWorker} {m : Work β} (hm : Modal P m R) :
    Modal P (update u >>= fun _ ↦ m) R := Monitor.Guards.update (fun _ _ h ↦ h) hm

theorem updated (u : RadioWorker → RadioWorker) :
    Modal P (Traced.update u) fun _ ↦ P := fun _ _ h ↦ ⟨trivial, h⟩

theorem read {g : RadioWorker → Work β} (hg : ∀ w, Modal P (g w) R) : Modal P (read >>= g) R :=
  Monitor.Guards.read fun w ↦ Monitor.Guards.conseq (hg w) (fun _ _ h ↦ h.2) fun _ _ _ h ↦ h

theorem pure {a : α} (h : ∀ phase, P phase → Q a phase) : Modal P (Pure.pure a) Q :=
  Monitor.Guards.pure fun _ ↦ h

theorem ite {c : Prop} [Decidable c] {m n : Work α} (hm : Modal P m Q) (hn : Modal P n Q) :
    Modal P (if c then m else n) Q := Monitor.Guards.ite (fun _ ↦ hm) fun _ ↦ hn

end Modal

open Modal (call update updated read pure ite)

/-! ## Calls at rest -/

def Effect.untuning : Effect → Bool
  | .radio op => !op.tunes
  | _ => true

theorem chipGuard_of_untuning (e : Effect) (he : e.untuning = true) (phase : ChipPhase)
    (hphase : phase ≠ .sending) :
    chipGuard.Allows phase e ∧ chipGuard.next phase e ≠ .sending := by
  refine chipMonitor.on_keeps (I := (· ≠ .sending)) (fun op hop phase hphase ↦ ?_) hphase
  cases e <;> cases hop
  have htunes : op.tunes = false := by simpa [Effect.untuning] using he
  refine ⟨⟨fun hsending ↦ absurd hsending hphase, fun h ↦ ?_⟩, ?_⟩
  · rw [htunes] at h
    cases h
  · cases op with
    | startTransmit frame pkt st => cases htunes
    | beginCommon | standby | finishTransmit | startReceive => nofun
    | _ => exact hphase

theorem AtRest.of_frame {τ α : Type} {f : RadioWorker → τ} {ok : Effect → Prop} {m : Work α}
    (hm : Frame f (fun _ ↦ ok) m) (hok : ∀ e, ok e → e.untuning = true) : AtRest m :=
  (Monitor.Guards.of_frame hm (fun e he ↦ chipGuard_of_untuning e (hok e he)) fun _ ↦ True).conseq
    (fun _ _ h ↦ ⟨trivial, h⟩) fun _ _ _ h ↦ h.2

namespace AtRest

theorem arm : AtRest armReceive :=
  of_frame (Moves.armReceive (k := (· == .radio .startReceive)) rfl) fun e he ↦ by
    rw [eq_of_beq he]
    rfl

theorem issue {e : Effect} (he : e.untuning = true) : AtRest (issue e) := by
  have hm : Frame (fun _ : RadioWorker ↦ ()) (fun _ e ↦ e.untuning = true) (Traced.issue e) :=
    Frame.issue fun _ ↦ he
  exact of_frame hm fun _ h ↦ h

theorem rxLoop (is : List RxStep) (l : RxLocals) : AtRest (rxLoop is l) :=
  of_frame (RxOnly.rxLoop is l) fun e he ↦ by
    cases e with
    | radio op => cases op <;> first | rfl | cases he
    | _ => rfl

theorem readLevel (r : ThermalReading) : AtRest (readLevel r) :=
  of_frame (readLevel_sensorOnly r) fun e he ↦ by
    cases e with
    | radio op => cases he
    | _ => rfl

theorem enqueueTx (frame : TxFrame) : AtRest (enqueueTx frame) := by
  have hm : Frame (fun _ : RadioWorker ↦ ()) (fun _ e ↦ e.untuning = true)
      (RadioService.enqueueTx frame) := enqueueTx_frame (fun _ _ _ ↦ rfl) frame
  exact of_frame hm fun _ h ↦ h

end AtRest

/-! ## Tuning -/

/-- A call in standby that stays there. -/
def RadioOp.stays (op : RadioOp) : Prop := ChipPhase.next .standby op = .standby

namespace Modal

variable {α : Type} {Q : α → ChipPhase → Prop}

theorem tune {op : RadioOp} {m : Work α} (hop : op.stays) (hm : Modal (· = .standby) m Q) :
    Modal (· = .standby) (radioCall op >>= fun _ ↦ m) Q := by
  refine call ?_ hm
  rintro phase rfl
  exact ⟨⟨nofun, fun _ ↦ rfl⟩, hop⟩

/-- Into standby, from anywhere but from sending. -/
theorem standby {m : Work α} (hm : Modal (· = .standby) m Q) :
    Modal (· ≠ .sending) (standby >>= fun _ ↦ m) Q := by
  have hcall : Modal (· ≠ .sending) RadioService.standby fun _ ↦ (· = .standby) := by
    refine call (fun phase h ↦ ⟨⟨fun hsending ↦ absurd hsending h, fun htunes ↦ ?_⟩, ?_⟩)
      (updated _)
    · cases htunes
    · rfl
  exact hcall.bind fun _ ↦ hm

theorem setFrequency (hz : UInt32) (st : Int16) :
    Modal (· = .standby) (setFrequency hz st) fun _ ↦ (· = .standby) :=
  tune (rfl : RadioOp.stays (.setFrequency hz st)) <|
    ite (update (pure fun _ h ↦ h)) (pure fun _ h ↦ h)

theorem setOutputPower (dbm : Int8) (st : Int16) :
    Modal (· = .standby) (setOutputPower dbm st) fun _ ↦ (· = .standby) :=
  tune (rfl : RadioOp.stays (.setOutputPower dbm st)) <|
    ite (update (pure fun _ h ↦ h)) (pure fun _ h ↦ h)

theorem beginFLRC (io : InitInput) :
    Modal (· ≠ .sending) (beginFLRC io) fun _ ↦ (· = .standby) := by
  have hdone : ∀ st : Int16, Modal (· = .standby) (Pure.pure st : Work Int16) fun _ ↦
      (· = .standby) := fun _ ↦ pure fun _ h ↦ h
  refine call (S := (· = .standby)) (fun phase h ↦ ⟨⟨fun hsending ↦ absurd hsending h, ?_⟩, rfl⟩)
    ?_
  · rintro ⟨⟩
  refine ite (hdone _) <| (setFrequency _ _).bind fun st ↦ ite (hdone st) ?_
  exact tune (rfl : RadioOp.stays (.calibrate io.calibrateSt)) <|
    ite (hdone _) (setOutputPower _ _)

end Modal

/-- From standby, and at rest behind it. -/
abbrev Tuning {α : Type} (m : Work α) : Prop := Modal (· = .standby) m fun _ ↦ (· ≠ .sending)

namespace Tuning

variable {α : Type}

theorem armed (a : α) : Tuning (armReceive >>= fun _ ↦ (Pure.pure a : Work α)) :=
  (Modal.of_rest AtRest.arm).bind fun _ ↦ pure fun _ h ↦ h

theorem retune (clamped : Config) (prevPower : Int8) (io : ConfigInput) :
    Tuning (retune clamped prevPower io) := by
  have hrest : ∀ st : Int16, Tuning (do
      if st ≠ errNone then
        armReceive
        return .error "set frequency failed"
      if clamped.txPowerDbm ≠ prevPower then
        discard (setOutputPower clamped.txPowerDbm io.powerSt)
      armReceive
      return .ok () : Work (Except String Unit)) := fun st ↦
    ite (armed _) (ite ((Modal.setOutputPower _ _).discard.bind fun _ ↦ armed _) (armed _))
  exact ite ((Modal.setFrequency _ _).bind hrest)
    (Monitor.Guards.bind (pure fun _ h ↦ h) hrest)

end Tuning

namespace AtRest

theorem init (gpio : ℕ) (io : InitInput) : AtRest (init gpio io) := by
  have hdone : AtRest (do
      armReceive
      Traced.update fun w ↦ { w with inInit := false }
      return true : Work Bool) := arm.bind fun _ ↦ update (pure fun _ h ↦ h)
  refine update <| (issue rfl).bind fun _ ↦ (issue rfl).bind fun _ ↦
    (Modal.beginFLRC io).bind fun _ ↦ ite (update (pure fun _ h ↦ ?_)) ?_
  · exact h ▸ nofun
  · exact Modal.tune (rfl : RadioOp.stays .applyProfile) (update (Modal.of_rest hdone))

theorem applyConfig (cfg : Config) (io : ConfigInput) : AtRest (applyConfig cfg io) :=
  read fun _ ↦ ite (pure fun _ h ↦ h) <| ite (pure fun _ h ↦ h) <| update <|
    Modal.standby (Tuning.retune _ _ io)

/-! ## Scans -/

theorem beginScan (p : ScanParams) (now : UInt32) (freqSt : Int16) :
    AtRest (beginScan p now freqSt) :=
  update <| read fun _ ↦ ite (Modal.standby <| (Modal.setFrequency _ _).discard.bind fun _ ↦
    update (Modal.of_rest arm)) (pure fun _ h ↦ h)

theorem startScan (p : ScanParams) (now : UInt32) (freqSt : Int16) :
    AtRest (startScan p now freqSt) :=
  read fun _ ↦ ite (update (beginScan p now freqSt)) (beginScan p now freqSt)

theorem scanTick (now : UInt32) (freqSt : Int16) : AtRest (scanTick now freqSt) := by
  have hend : AtRest (endScan freqSt) := update <| read fun _ ↦
    ite (Modal.standby <| (Modal.setFrequency _ _).discard.bind fun _ ↦
      update (Modal.of_rest arm)) arm
  have hnext : AtRest (nextChannel now freqSt) := read fun _ ↦ Modal.standby <|
    (Modal.setFrequency _ _).discard.bind fun _ ↦ update (Modal.of_rest arm)
  exact read fun _ ↦ ite (pure fun _ h ↦ h) <| (issue rfl).bind fun _ ↦ update <|
    read fun _ ↦ ite hend hnext

end AtRest

/-! ## Bursts -/

namespace Modal

theorem waitTxDone (deadline : UInt32) (polls : List TxPoll) :
    Modal (· = .sending) (waitTxDone deadline polls) fun _ ↦ (· = .sending) := by
  induction polls with
  | nil => exact pure fun _ h ↦ h
  | cons p ps ih =>
      have hdone : ∀ done : Bool, Modal (· = .sending) (Pure.pure done : Work Bool) fun _ ↦
          (· = .sending) := fun _ ↦ pure fun _ h ↦ h
      refine ite (call (S := (· = .sending)) ?_ (ite (hdone _) (ite (hdone _) ih))) (hdone _)
      rintro phase rfl
      exact ⟨⟨fun _ ↦ rfl, nofun⟩, rfl⟩

theorem startTransmit (frame : TxFrame) (pkt : List UInt8) (st : Int16) :
    Modal (· = .standby) (startTransmit frame pkt st) fun st' phase ↦
      phase = if st' = errNone then .sending else .unsure := by
  refine call (S := fun phase ↦ phase = if st = errNone then .sending else .unsure) ?_
    (update (pure fun _ h ↦ h))
  rintro phase rfl
  exact ⟨⟨nofun, fun _ ↦ rfl⟩, rfl⟩

theorem finishTransmit {α : Type} {m : Work α} {Q : α → ChipPhase → Prop}
    (hm : Modal (· = .standby) m Q) :
    Modal (· = .sending) (finishTransmit >>= fun _ ↦ m) Q := by
  have hcall : Modal (· = .sending) RadioService.finishTransmit fun _ ↦ (· = .standby) := by
    refine call (S := (· = .standby)) ?_ (updated _)
    rintro phase rfl
    exact ⟨⟨fun _ ↦ rfl, nofun⟩, rfl⟩
  exact hcall.bind fun _ ↦ hm

/-- Behind a packet that is done the chip stands by. -/
theorem tryPacket (frame : TxFrame) (pkt : List UInt8) (attempt : ℕ → Attempt) (k n : ℕ) :
    Modal (fun phase ↦ phase ≠ .sending ∧ (k = 0 → phase = .standby))
      (tryPacket frame pkt attempt k n)
      fun done phase ↦ phase ≠ .sending ∧ (done = true → phase = .standby) := by
  induction n generalizing k with
  | zero => exact pure fun _ h ↦ ⟨h.1, nofun⟩
  | succ n ih =>
      have hawait : Modal (· = .sending) (do
          let done ← RadioService.waitTxDone ((attempt k).startMs + 25) (attempt k).polls
          RadioService.finishTransmit
          if done then
            return true
          else
            RadioService.tryPacket frame pkt attempt (k + 1) n : Work Bool)
          fun done phase ↦ phase ≠ .sending ∧ (done = true → phase = .standby) := by
        refine (waitTxDone _ _).bind fun done ↦ finishTransmit (ite ?_ ?_)
        · exact pure fun _ h ↦ ⟨h ▸ nofun, fun _ ↦ h⟩
        · exact (ih (k + 1)).conseq (fun _ h ↦ ⟨h ▸ nofun, nofun⟩) fun _ _ h ↦ h
      have hstart := (startTransmit frame pkt (attempt k).st).bind fun st ↦
        Monitor.Guards.ite (c := st ≠ errNone)
          (fun hst ↦ Modal.conseq
            (S := fun phase ↦ phase = if st = errNone then .sending else .unsure)
            (ih (k + 1)) (fun _ h ↦ ⟨(h.trans (if_neg hst)) ▸ nofun, nofun⟩) fun _ _ h ↦ h)
          fun hst ↦ Modal.conseq hawait (fun _ h ↦ h.trans (if_pos (not_not.mp hst)))
            fun _ _ h ↦ h
      refine Monitor.Guards.ite (fun _ ↦ ?_) fun hk ↦ ?_
      · exact conseq (standby hstart) (fun _ h ↦ h.1) fun _ _ h ↦ h
      · exact conseq hstart (fun _ h ↦ h.2 (Nat.eq_zero_of_not_pos hk)) fun _ _ h ↦ h

theorem sendPackets (frame : TxFrame) (id total : UInt16) (crc : UInt32)
    (attempt : ℕ → ℕ → Attempt) (idx n : ℕ) :
    Modal (· = .standby) (sendPackets frame id total crc attempt idx n)
      fun _ ↦ (· ≠ .sending) := by
  induction n generalizing idx with
  | zero => exact pure fun _ h ↦ h ▸ nofun
  | succ n ih =>
      have hpacket := (tryPacket frame (encodePacket id (UInt16.ofNat idx) total frame.payload
        (UInt32.ofNat frame.payload.length) crc) (attempt idx) 0 3).conseq
          (S := (· = .standby)) (fun _ h ↦ ⟨h ▸ nofun, fun _ ↦ h⟩) fun _ _ h ↦ h
      refine hpacket.bind fun done ↦
        Monitor.Guards.ite (fun _ ↦ pure fun _ h ↦ h.1) fun hdone ↦ ?_
      exact update ((ih (idx + 1)).conseq (fun _ h ↦ h.2 (by simpa using hdone)) fun _ _ h ↦ h)

end Modal

namespace AtRest

theorem burstFrame (frame : TxFrame) (io : BurstInput) : AtRest (burstFrame frame io) := by
  have hburst : Tuning (transmitBurst frame io) := ite (pure fun _ h ↦ h ▸ nofun) <|
    read fun _ ↦ update (Modal.sendPackets _ _ _ _ _ _ _)
  exact Modal.standby <| update <| hburst.bind fun _ ↦ update <| arm.bind fun _ ↦
    pure fun _ h ↦ h

theorem serviceTxQueue (io : BurstInput) : AtRest (serviceTxQueue io) := by
  have hpop : AtRest popFrame := by
    refine read fun w ↦ ?_
    split
    · exact pure fun _ h ↦ h
    · exact update (pure fun _ h ↦ h)
  refine read fun _ ↦ ite (pure fun _ h ↦ h) (hpop.bind fun frame ↦ ?_)
  cases frame with
  | none => exact pure fun _ h ↦ h
  | some frame => exact (burstFrame frame io).bind fun _ ↦ issue rfl

/-! ## The thermal guard -/

theorem enterLevel (prev level : Int) (io : ThermalInput) : AtRest (enterLevel prev level io) := by
  have hcut : AtRest cutPower := by
    have hrest : ∀ gpio, AtRest (do
        Traced.issue (.powerSet 42 true)
        Traced.issue (.powerSet gpio false)
        Traced.update fun w ↦ { w with thermalPoweredDown := true } : Work Unit) := fun gpio ↦
      (issue rfl).bind fun _ ↦ (issue rfl).bind fun _ ↦ updated _
    exact read fun _ ↦ ite (Modal.standby (Modal.of_rest (hrest _))) (hrest _)
  have hdrain : AtRest drainTxQ := read fun _ ↦ update (pure fun _ h ↦ h)
  have hreport : ∀ frames, AtRest (reportDropped frames) := by
    intro frames
    have hm : Frame (fun _ : RadioWorker ↦ ()) (fun _ e ↦ e.untuning = true)
        (reportDropped frames) := by
      refine Frame.issueAll fun e he _ ↦ ?_
      obtain ⟨frame, -, rfl⟩ := List.mem_map.mp he
      rfl
    exact of_frame hm fun _ h ↦ h
  have hpower : ∀ dbm, AtRest (do
      standby
      discard (setOutputPower dbm io.powerSt)
      armReceive : Work Unit) := fun _ ↦
    Modal.standby <| (Modal.setOutputPower _ _).discard.bind fun _ ↦ Modal.of_rest arm
  have hrevive : AtRest (reviveRadio io) := read fun _ ↦ (init _ _).bind fun _ ↦
    ite (update (applyConfig _ _).discard) (pure fun _ h ↦ h)
  refine update <| ite (hcut.bind fun _ ↦ hdrain.bind hreport) <|
    ite ?_ <| ite ?_ (pure fun _ h ↦ h)
  · exact read fun _ ↦ ite (hpower _) (pure fun _ h ↦ h)
  · exact read fun _ ↦ ite hrevive (ite (hpower _) (pure fun _ h ↦ h))

theorem thermalTick (now : UInt32) (io : ThermalInput) : AtRest (thermalTick now io) := by
  refine read fun _ ↦ ite (pure fun _ h ↦ h) <| update <| (readLevel _).bind fun level ↦
    read fun w ↦ ?_
  cases level with
  | none => exact pure fun _ h ↦ h
  | some level => exact ite (enterLevel _ _ _) (pure fun _ h ↦ h)

/-! ## Runs of the worker -/

theorem pollOnce (io : PollInput) : AtRest (pollOnce io) := by
  have hgated : AtRest (do
      let w ← Traced.read
      if !w.scanActive then
        RadioService.serviceTxQueue io.burst : Work Unit) :=
    read fun _ ↦ ite (serviceTxQueue _) (pure fun _ h ↦ h)
  have hafter : AtRest (afterScan io) := read fun _ ↦ ite (pure fun _ h ↦ h) <|
    ite (ite (serviceTxQueue _) (pure fun _ h ↦ h)) ((rxLoop _ _).bind fun _ ↦ hgated)
  rw [pollOnce_eq]
  exact (thermalTick _ _).bind fun _ ↦ read fun _ ↦ ite (pure fun _ h ↦ h) <|
    ite ((scanTick _ _).bind fun _ ↦ hafter) hafter

theorem exec (c : Call) : AtRest c.exec := by
  cases c with
  | applyConfig cfg io => exact (applyConfig cfg io).discard
  | startScan p now freqSt => exact startScan p now freqSt
  | pollOnce io => exact pollOnce io
  | enqueueTx frame => exact (enqueueTx frame).discard

end AtRest

/-- Whatever the worker is called to do and whatever its driver answers, it tunes the
chip, sets its power and starts a transmission in standby only, and leaves a chip that
sends alone until the transmission is finished. -/
theorem chip_modes_respected (w : RadioWorker) (calls : List Call) {phase : ChipPhase}
    (hphase : phase ≠ .sending) :
    chipMonitor.Passes phase (radioOps ((run workerStep w calls).2.map Prod.snd)) :=
  (chipMonitor.passes_on Effect.op? phase _).mp (Monitor.Guards.run AtRest.exec hphase calls)

/-- A burst of one packet at the second attempt, and a sweep behind it. -/
theorem chip_modes_respected_burst :
    chipMonitor.Passes .receiving (radioOps ((run workerStep booted.state
      [.enqueueTx ⟨0, [1, 2, 3]⟩,
        .pollOnce { pollAt 4000 0 with
          burst := ⟨1, 0, fun _ k ↦ ⟨if k = 0 then 1 else 0, 0, [⟨10, irqTxDone⟩]⟩⟩ },
        .startScan {} 4010 0, .pollOnce (pollAt 4400 0)]).2.map Prod.snd)) :=
  chip_modes_respected _ _ nofun

end RadioService
