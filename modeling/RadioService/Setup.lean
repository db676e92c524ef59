import RadioService.SetupRules
import RadioService.WorkerRun

/-!
# Setting the radio up

Configuration, the retunes of a scan and the thermal guard drive the radio and
change the settings.  They move no packet, report no channel, and leave the
queue, the counters and the tally of a scan alone.
-/

namespace RadioService

open Traced

def Effect.setup : Effect → Bool
  | .radio .standby | .radio .startReceive | .radio (.setFrequency _ _)
  | .radio (.setOutputPower _ _) | .radio (.beginCommon _) | .radio (.calibrate _)
  | .radio .applyProfile | .powerSet _ _ | .setCpuStage _ => true
  | _ => false

/-- The worker without its settings, the mode of the chip and what arming resets. -/
def RadioWorker.traffic (w : RadioWorker) : RadioWorker :=
  { w with
    toSettings := {}, chipMode := .standby
    st := { w.st with burstMode := 0, restartRxPending := 0 } }

/-- `m` sets the radio up: it leaves the traffic alone and moves none. -/
abbrev SetsUp {α : Type} (m : Work α) : Prop :=
  Frame RadioWorker.traffic (fun _ e ↦ e.setup = true) m

theorem Effect.setup_of_board {e : Effect} (h : e.board = true) : e.setup = true := by
  cases e <;> first | rfl | cases h

theorem SensorOnly.setsUp {α : Type} {m : Work α} (h : SensorOnly m) : SetsUp m :=
  Frame.comp (f := RadioWorker.noSensor) RadioWorker.traffic
    (fun _ _ ↦ Effect.setup_of_board) h

namespace SetsUp

theorem rules : GuardRules fun m ↦ SetsUp m where
  pure := Frame.pure
  read := Frame.read
  bind := Frame.bind
  standby := Frame.bind (Frame.issue fun _ ↦ rfl) fun _ ↦ Frame.update fun _ ↦ rfl
  arm := Frame.read.bind fun _ ↦ (Frame.pure ()).ite <|
    Frame.bind (Frame.bind (Frame.issue fun _ ↦ rfl) fun _ ↦ Frame.update fun _ ↦ rfl)
      fun _ ↦ Frame.update fun _ ↦ rfl
  freq _ st := Frame.bind (Frame.issue fun _ ↦ rfl) fun _ ↦
    Frame.ite (Frame.updating rfl (Frame.pure st)) (Frame.pure st)
  power _ st := Frame.bind (Frame.issue fun _ ↦ rfl) fun _ ↦
    Frame.ite (Frame.updating rfl (Frame.pure st)) (Frame.pure st)
  start {op} hop := Frame.issue fun _ ↦ by cases op <;> first | rfl | cases hop
  store _ := Frame.update fun _ ↦ rfl
  pin _ _ := Frame.issue fun _ ↦ rfl
  guard hu := Frame.update fun w ↦ by
    obtain ⟨_, _, _, _, _, _, hw⟩ := hu w
    rw [hw]
    rfl

theorem endScan (freqSt : Int16) : SetsUp (endScan freqSt) :=
  Frame.updating rfl <| Frame.read.bind fun _ ↦ Frame.ite (rules.standby.bind fun _ ↦
    (rules.freq _ _).discard.bind fun _ ↦ Frame.updating rfl rules.arm) rules.arm

end SetsUp

end RadioService
