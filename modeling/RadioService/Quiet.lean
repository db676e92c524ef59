import RadioService.Setup

/-!
# Programs that move no traffic

Configuration, scans and the thermal guard neither read a packet from the
radio nor send one, and they leave the transmit queue alone but for the drain
of a cutoff.
-/

namespace RadioService

open Burst Traced

/-- Neither a packet nor a terminal. -/
def Effect.quiet : Effect → Bool
  | .radio (.startTransmit _ _ _) | .radio (.readData _ _ _) | .onRxPacket _ _
  | .onTxTerminal _ _ => false
  | _ => true

theorem Effect.quiet_of_scanning {e : Effect} (h : e.scanning = true) : e.quiet = true := by
  unfold Effect.quiet
  split <;> first | cases h | rfl

theorem Effect.quiet_of_setup {e : Effect} (h : e.setup = true) : e.quiet = true := by
  unfold Effect.quiet
  split <;> first | cases h | rfl

/-- The settings that decide whether the radio may be driven. -/
def Settings.guard (s : Settings) : Bool × Bool × Int × Bool :=
  (s.radioOk, s.inInit, s.thermalLevel, s.thermalPoweredDown)

/-- `m` leaves those settings and the queue alone and moves no traffic. -/
abbrev Quiet {α : Type} (m : Work α) : Prop :=
  Frame (fun w : RadioWorker ↦ (w.toSettings.guard, w.txQ)) (fun _ e ↦ e.quiet = true) m

/-- `m` leaves the queue alone and moves no traffic. -/
abbrev Calm {α : Type} (m : Work α) : Prop :=
  Frame RadioWorker.txQ (fun _ e ↦ e.quiet = true) m

theorem Scans.quiet {α : Type} {m : Work α} (h : Scans m) : Quiet m :=
  Frame.comp (f := fun w : RadioWorker ↦ (w.toSettings.noScan, w.txQ))
    (Prod.map Settings.guard id) (fun _ _ ↦ Effect.quiet_of_scanning) h

theorem Quiet.calm {α : Type} {m : Work α} (h : Quiet m) : Calm m :=
  Frame.comp (f := fun w : RadioWorker ↦ (w.toSettings.guard, w.txQ)) Prod.snd
    (fun _ _ he ↦ he) h

theorem SetsUp.calm {α : Type} {m : Work α} (h : SetsUp m) : Calm m :=
  Frame.comp (f := RadioWorker.traffic) RadioWorker.txQ (fun _ _ ↦ Effect.quiet_of_setup) h

theorem Quiet.rules : ConfigRules fun m ↦ Quiet m where
  pure := Frame.pure
  read := Frame.read
  bind := Frame.bind
  standby := Scans.standby.quiet
  arm := Scans.armReceive.quiet
  freq hz st := (Scans.setFrequency hz st).quiet
  power _ st := Frame.bind (Frame.issue fun _ ↦ rfl) fun _ ↦
    Frame.ite (Frame.updating rfl (Frame.pure st)) (Frame.pure st)
  start {op} hop := Frame.issue fun _ ↦ by cases op <;> first | rfl | cases hop
  store _ := Frame.update fun _ ↦ rfl

theorem Calm.rules : GuardRules fun m ↦ Calm m := SetsUp.rules.lift Frame.bind SetsUp.calm

end RadioService
