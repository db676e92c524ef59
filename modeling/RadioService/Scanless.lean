import RadioService.SetupRules
import RadioService.WorkerRun

/-!
# Programs that start no scan

Only `startScan` begins a sweep, and only `scanTick` reports a channel, which
the poll calls while a sweep is under way.
-/

namespace RadioService

open Burst Traced

def Effect.isResult : Effect → Bool
  | .onScanResult _ _ _ _ => true
  | _ => false

abbrev Scanless {α : Type} (m : Work α) : Prop :=
  Confined (fun w : RadioWorker ↦ w.scanActive = false) (fun e ↦ e.isResult = false) m

namespace Scanless

variable {α : Type}

theorem of_traffic {m : Work α} (h : KeepsSettings m) : Scanless m := by
  refine Confined.of_frame h (fun w w' heq hw ↦ ?_) fun _ e he ↦ ?_
  · exact (congrArg (·.scanActive) heq).trans hw
  · cases e <;> first | rfl | cases he

theorem of_sensor {m : Work α} (h : SensorOnly m) : Scanless m := by
  refine Confined.of_frame h (fun w w' heq hw ↦ ?_) fun _ e he ↦ ?_
  · exact (congrArg (·.scanActive) heq).trans hw
  · cases e <;> first | rfl | cases he

theorem call (op : RadioOp) : Scanless (radioCall op) := Confined.issue rfl

theorem rules : GuardRules fun m ↦ Scanless m where
  pure := Confined.pure
  read := Confined.read
  bind := Confined.bind
  standby := of_traffic .standby
  arm := of_traffic .armReceive
  freq _ st := (call _).bind fun _ ↦
    Confined.ite (Confined.updating (fun _ hw ↦ hw) (Confined.pure st)) (Confined.pure st)
  power _ st := (call _).bind fun _ ↦
    Confined.ite (Confined.updating (fun _ hw ↦ hw) (Confined.pure st)) (Confined.pure st)
  start _ := call _
  store _ := Confined.update fun _ _ ↦ rfl
  pin _ _ := Confined.issue rfl
  guard hu := Confined.update fun w hw ↦ by
    obtain ⟨_, _, _, _, _, _, hu⟩ := hu w
    rw [hu]
    exact hw

theorem enqueueTx (frame : TxFrame) : Scanless (enqueueTx frame) := of_traffic (.enqueueTx frame)

theorem thermalTick (now : UInt32) (io : ThermalInput) : Scanless (thermalTick now io) :=
  rules.thermalTick now io (Confined.update fun _ hw ↦ hw)
    (of_sensor (readLevel_sensorOnly io.reading)) (of_traffic drain_keeps)

theorem afterTick (io : PollInput) : Scanless (afterTick io) := by
  intro w hw
  rw [afterTick_run, hw]
  exact Confined.ite (Confined.pure ()) (of_traffic (afterScan_keeps io)) w hw

theorem pollOnce (io : PollInput) : Scanless (RadioService.pollOnce io) := by
  rw [pollOnce_eq]
  exact (thermalTick _ _).bind fun _ ↦ afterTick io

end Scanless

end RadioService
