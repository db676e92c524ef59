import RadioService.ScanSpec

/-!
# The pending flag of the stats frame

`pendingTxValid` is written next to the queue when a frame is pushed, popped or
drained.  `startScan` writes it as well and leaves the queue alone.
-/

namespace RadioService

open Traced Machine

/-- The flag says whether a frame is queued. -/
def FlagTrue (w : RadioWorker) : Prop := w.st.pendingTxValid = 1 ↔ w.txQ ≠ []

instance : DecidablePred FlagTrue := fun _ ↦ inferInstanceAs (Decidable (_ ↔ _))

/-- The functions that touch the flag, the queue or a scan. -/
inductive WorkerOp where
  | enqueueTx (frame : TxFrame)
  | serviceTxQueue (io : BurstInput)
  | startScan (p : ScanParams) (now : UInt32) (freqSt : Int16)
  | scanTick (now : UInt32) (freqSt : Int16)
  | applyConfig (cfg : Config) (io : ConfigInput)
  | thermalTick (now : UInt32) (io : ThermalInput)

namespace WorkerOp

def exec : WorkerOp → Work Unit
  | enqueueTx frame => discard (RadioService.enqueueTx frame)
  | serviceTxQueue io => RadioService.serviceTxQueue io
  | startScan p now freqSt => RadioService.startScan p now freqSt
  | scanTick now freqSt => RadioService.scanTick now freqSt
  | applyConfig cfg io => discard (RadioService.applyConfig cfg io)
  | thermalTick now io => RadioService.thermalTick now io

def startsScan : WorkerOp → Bool
  | startScan _ _ _ => true
  | _ => false

end WorkerOp

/-- One of these functions, as a step. -/
def opStep : Step RadioWorker WorkerOp (RadioWorker × Effect) := machine WorkerOp.exec

/-! ## What keeps the flag -/

theorem flagTrue_of_traffic {w w' : RadioWorker} (h : w'.traffic = w.traffic) :
    FlagTrue w' ↔ FlagTrue w := by
  have hflag : w'.st.pendingTxValid = w.st.pendingTxValid :=
    (congrArg (·.st.pendingTxValid) h :)
  have hq : w'.txQ = w.txQ := (congrArg (·.txQ) h :)
  rw [FlagTrue, FlagTrue, hflag, hq]

theorem SetsUp.keepsFlag {α : Type} {m : Work α} (h : SetsUp m) : Keeps FlagTrue m :=
  fun w ↦ (flagTrue_of_traffic (h w).1).mpr

namespace FlagTrue

theorem burstFrame (frame : TxFrame) (io : BurstInput) :
    Keeps FlagTrue (burstFrame frame io) := by
  have hrules : TxRules frame fun m ↦ Keeps FlagTrue m :=
    { pure := Keeps.pure
      read := Keeps.read
      bind := Keeps.bind
      standby := SetsUp.rules.standby.keepsFlag
      arm := SetsUp.rules.arm.keepsFlag
      start := fun _ _ ↦ (Keeps.issue _).bind fun _ ↦ Keeps.updating rfl (Keeps.pure _)
      finish := (Keeps.issue _).bind fun _ ↦ Keeps.update fun _ hw ↦ hw
      poll := fun _ ↦ Keeps.issue _
      count := fun hu ↦ Keeps.update fun w hw ↦ by
        obtain ⟨_, _, heq, hflag⟩ := hu w
        rw [heq, FlagTrue, hflag]
        exact hw }
  exact hrules.burstFrame io

theorem popFrame : Keeps FlagTrue popFrame := by
  intro w hw
  unfold RadioService.popFrame
  cases hq : w.txQ with
  | nil => simpa [hq] using hw
  | cons frame rest => cases rest <;> simp [hq, FlagTrue]

theorem serviceTxQueue (io : BurstInput) : Keeps FlagTrue (serviceTxQueue io) := by
  refine Keeps.read.bind fun w ↦ (Keeps.pure ()).ite (popFrame.bind fun frame ↦ ?_)
  cases frame with
  | none => exact Keeps.pure ()
  | some frame => exact (burstFrame frame io).bind fun _ ↦ Keeps.issue _

theorem enqueueTx (frame : TxFrame) : Keeps FlagTrue (enqueueTx frame) := by
  have hpush : Keeps FlagTrue (pushFrame frame) := by
    intro w hw
    by_cases hfull : w.txQ.length ≥ 16
    · simpa [pushFrame, hfull, FlagTrue] using hw
    · simp [pushFrame, hfull, FlagTrue]
  exact Keeps.read.bind fun _ ↦ (Keeps.pure _).ite hpush

theorem scanTick (now : UInt32) (freqSt : Int16) : Keeps FlagTrue (scanTick now freqSt) := by
  intro w hw
  rw [scanTick_run]
  split
  · exact hw
  · have hmove := (moveOn_traffic now freqSt w).1
    rw [Outcome.prepend_state]
    split at hmove
    · exact (flagTrue_of_traffic hmove).mpr hw
    · exact (flagTrue_of_traffic (w := w.freshTally) hmove).mpr hw

theorem thermalTick (now : UInt32) (io : ThermalInput) :
    Keeps FlagTrue (thermalTick now io) := by
  have hrules : GuardRules fun m ↦ Keeps FlagTrue m := SetsUp.rules.lift Keeps.bind SetsUp.keepsFlag
  have hdrain : Ensures FlagTrue drainTxQ := fun w ↦ by
    simp [drainTxQ, FlagTrue]
  exact hrules.thermalTick now io (Keeps.update fun _ hw ↦ hw)
    (readLevel_sensorOnly io.reading).setsUp.keepsFlag
    (hdrain.keeps.bind fun _ ↦ Keeps.issueAll _)

end FlagTrue

/-! ## Runs -/

/-- A scan clears the flag; the queue stays as it is. -/
theorem startScan_flag_iff (p : ScanParams) (now : UInt32) (freqSt : Int16) (w : RadioWorker) :
    FlagTrue ((startScan p now freqSt).run w).state ↔ w.txQ = [] := by
  have htraffic := (startScan_traffic p now freqSt w).1
  have hflag : ((startScan p now freqSt).run w).state.st.pendingTxValid = 0 :=
    (congrArg (·.st.pendingTxValid) htraffic :)
  have hq : ((startScan p now freqSt).run w).state.txQ = w.txQ := (congrArg (·.txQ) htraffic :)
  simp [FlagTrue, hflag, hq]

theorem opStep_flag_iff {w : RadioWorker} (hw : FlagTrue w) (o : WorkerOp) :
    FlagTrue (opStep w o).1 ↔ (o.startsScan = true → w.txQ = []) := by
  cases o with
  | startScan p now freqSt =>
      exact (startScan_flag_iff p now freqSt w).trans ⟨fun h _ ↦ h, fun h ↦ h rfl⟩
  | enqueueTx frame => exact iff_of_true ((FlagTrue.enqueueTx frame).discard w hw) nofun
  | serviceTxQueue io => exact iff_of_true (FlagTrue.serviceTxQueue io w hw) nofun
  | scanTick now freqSt => exact iff_of_true (FlagTrue.scanTick now freqSt w hw) nofun
  | applyConfig cfg io =>
      exact iff_of_true (SetsUp.keepsFlag (SetsUp.rules.applyConfig cfg io).discard w hw) nofun
  | thermalTick now io => exact iff_of_true (FlagTrue.thermalTick now io w hw) nofun

/-- The flag tells the truth behind every step of a run exactly if every scan of
it starts on an empty queue. -/
theorem pendingTxValid_iff (io : InitInput) (ops : List WorkerOp) :
    let w := ((init 44 io).run {}).state
    Along opStep (fun w o ↦ FlagTrue (opStep w o).1) w ops ↔
      Along opStep (fun w o ↦ o.startsScan = true → w.txQ = []) w ops := by
  have hboot : FlagTrue ((init 44 io).run {}).state := by
    refine (flagTrue_of_traffic (SetsUp.rules.init 44 io {}).1).mpr ?_
    simp [FlagTrue]
  exact Along.congr (I := FlagTrue) (fun w o hw ↦ opStep_flag_iff hw o)
    (fun w o hw hq ↦ (opStep_flag_iff hw o).mpr hq) hboot

/-- A scan behind a queued frame: the flag is down and the frame still there. -/
theorem pendingTxValid_lost :
    let w := (run opStep ((init 44 {}).run {}).state
      [.enqueueTx ⟨0, [7]⟩, .startScan {} 1000 0]).1
    w.st.pendingTxValid = 0 ∧ w.txQ = [⟨0, [7]⟩] ∧ ¬FlagTrue w :=
  ⟨by decide, by decide, by decide⟩

end RadioService
