import RadioService.Thermal

/-!
# Rules for setting the radio up

Configuration and the thermal guard are put together from standby, re-arming, the
frequency and the power, next to the calls that start a chip and the settings they
store.  A property of programs that these have and that survives sequencing holds
of both.
-/

namespace RadioService

open Traced

/-- The calls that start a chip, but for the frequency and the power. -/
def RadioOp.starts : RadioOp → Bool
  | .beginCommon _ | .calibrate _ | .applyProfile => true
  | _ => false

/-- `u` changes no more than what tells whether the radio may be driven, and the mode shown
in the stats. -/
def SetsGuard (u : RadioWorker → RadioWorker) : Prop :=
  ∀ w, ∃ ok inInit gpio level down mode, u w = { w with
    radioOk := ok, inInit := inInit, powerGpio := gpio, thermalLevel := level
    thermalPoweredDown := down, st := { w.st with burstMode := mode } }

/-- What `P` has to hold of for it to hold of a configuration. -/
structure ConfigRules (P : ∀ {α : Type}, Work α → Prop) : Prop where
  pure : ∀ {α : Type} (a : α), P (pure a : Work α)
  read : P (read : Work RadioWorker)
  bind : ∀ {α β : Type} {m : Work α} {g : α → Work β}, P m → (∀ a, P (g a)) → P (m >>= g)
  standby : P standby
  arm : P armReceive
  freq : ∀ (hz : UInt32) (st : Int16), P (setFrequency hz st)
  power : ∀ (dbm : Int8) (st : Int16), P (setOutputPower dbm st)
  start : ∀ {op : RadioOp}, op.starts = true → P (radioCall op)
  store : ∀ cfg : Config, P (update fun w ↦ { w with scanActive := false, cfg := cfg } : Work Unit)

/-- What `P` has to hold of besides for it to hold of the thermal guard, but for the drain of
a cutoff. -/
structure GuardRules (P : ∀ {α : Type}, Work α → Prop) : Prop extends ConfigRules P where
  pin : ∀ (pin : ℕ) (high : Bool), P (issue (.powerSet pin high) : Work Unit)
  guard : ∀ {u : RadioWorker → RadioWorker}, SetsGuard u → P (update u : Work Unit)

namespace ConfigRules

variable {P : ∀ {α : Type}, Work α → Prop}

theorem ite {α : Type} {c : Prop} [Decidable c] {m n : Work α} (_ : ConfigRules P) (hm : P m)
    (hn : P n) : P (if c then m else n) := by
  split <;> assumption

variable (h : ConfigRules P)

include h

theorem armed {α : Type} (a : α) : P (armReceive >>= fun _ ↦ (Pure.pure a : Work α)) :=
  h.bind h.arm fun _ ↦ h.pure a

theorem discard {α : Type} {m : Work α} (hm : P m) : P (Functor.discard m) :=
  h.bind hm fun _ ↦ h.pure ()

theorem retune (clamped : Config) (prevPower : Int8) (io : ConfigInput) :
    P (retune clamped prevPower io) := by
  have hrest : ∀ st : Int16, P (do
      if st ≠ errNone then
        RadioService.armReceive
        return .error "set frequency failed"
      if clamped.txPowerDbm ≠ prevPower then
        Functor.discard (setOutputPower clamped.txPowerDbm io.powerSt)
      RadioService.armReceive
      return .ok () : Work (Except String Unit)) := fun st ↦
    h.ite (h.armed _) <| h.ite (h.bind (h.discard (h.power _ _)) fun _ ↦ h.armed _) (h.armed _)
  exact h.ite (h.bind (h.freq _ _) hrest) (h.bind (h.pure _) hrest)

theorem applyConfig (cfg : Config) (io : ConfigInput) : P (applyConfig cfg io) :=
  h.bind h.read fun _ ↦ h.ite (h.pure _) <| h.ite (h.pure _) <| h.bind (h.store _) fun _ ↦
    h.bind h.standby fun _ ↦ h.retune _ _ io

theorem beginFLRC (io : InitInput) : P (beginFLRC io) :=
  h.bind (h.start rfl) fun _ ↦ h.ite (h.pure _) <| h.bind (h.freq _ _) fun st ↦
    h.ite (h.pure st) <| h.bind (h.start rfl) fun _ ↦ h.ite (h.pure _) (h.power _ _)

theorem repower (dbm : Int8) (st : Int16) : P (do
    RadioService.standby
    Functor.discard (setOutputPower dbm st)
    armReceive) :=
  h.bind h.standby fun _ ↦ h.bind (h.discard (h.power dbm st)) fun _ ↦ h.arm

theorem throttle (io : ThermalInput) : P (throttle io) :=
  h.bind h.read fun _ ↦ h.ite (h.repower _ _) (h.pure ())

end ConfigRules

namespace GuardRules

variable {P : ∀ {α : Type}, Work α → Prop} (h : GuardRules P)

include h

/-- The rules carry over to a weaker property. -/
theorem lift {Q : ∀ {α : Type}, Work α → Prop}
    (hbind : ∀ {α β : Type} {m : Work α} {g : α → Work β}, Q m → (∀ a, Q (g a)) → Q (m >>= g))
    (hlift : ∀ {α : Type} {m : Work α}, P m → Q m) : GuardRules Q where
  pure a := hlift (h.pure a)
  read := hlift h.read
  bind := hbind
  standby := hlift h.standby
  arm := hlift h.arm
  freq hz st := hlift (h.freq hz st)
  power dbm st := hlift (h.power dbm st)
  start hop := hlift (h.start hop)
  store cfg := hlift (h.store cfg)
  pin pin high := hlift (h.pin pin high)
  guard hu := hlift (h.guard hu)

theorem guarding {α : Type} {u : RadioWorker → RadioWorker} {m : Work α} (hu : SetsGuard u)
    (hm : P m) : P (update u >>= fun _ ↦ m) := h.bind (h.guard hu) fun _ ↦ hm

theorem init (gpio : ℕ) (io : InitInput) : P (init gpio io) := by
  refine h.guarding (fun _ ↦ ⟨_, _, _, _, _, _, rfl⟩) <| h.bind (h.pin _ _) fun _ ↦
    h.bind (h.pin _ _) fun _ ↦ h.bind (h.beginFLRC io) fun st ↦
      h.ite (h.guarding (fun _ ↦ ⟨_, _, _, _, _, _, rfl⟩) (h.pure _)) ?_
  exact h.bind (h.start rfl) fun _ ↦ h.guarding (fun _ ↦ ⟨_, _, _, _, _, _, rfl⟩) <|
    h.bind h.arm fun _ ↦ h.guarding (fun _ ↦ ⟨_, _, _, _, _, _, rfl⟩) (h.pure _)

theorem reviveRadio (io : ThermalInput) : P (reviveRadio io) :=
  h.bind h.read fun _ ↦ h.bind (h.init _ _) fun _ ↦
    h.ite (h.guarding (fun _ ↦ ⟨_, _, _, _, _, _, rfl⟩) (h.discard (h.applyConfig _ _))) (h.pure ())

theorem recover (prev : Int) (io : ThermalInput) : P (recover prev io) :=
  h.bind h.read fun _ ↦ h.ite (h.reviveRadio io) <| h.ite (h.repower _ _) (h.pure ())

theorem cutPower : P cutPower := by
  have hoff : ∀ w : RadioWorker, P (do
      issue (.powerSet 42 true)
      issue (.powerSet w.powerGpio false)
      update fun w ↦ { w with thermalPoweredDown := true } : Work Unit) := fun w ↦
    h.bind (h.pin _ _) fun _ ↦ h.bind (h.pin _ _) fun _ ↦
      h.guard fun _ ↦ ⟨_, _, _, _, _, _, rfl⟩
  exact h.bind h.read fun w ↦ h.ite (h.bind h.standby fun _ ↦ hoff w) (hoff w)

/-- The drain of a cutoff is left to `P`. -/
theorem enterLevel (prev level : Int) (io : ThermalInput)
    (hdrain : P (drainTxQ >>= reportDropped)) : P (enterLevel prev level io) :=
  h.guarding (fun _ ↦ ⟨_, _, _, _, _, _, rfl⟩) <| h.ite (h.bind h.cutPower fun _ ↦ hdrain) <|
    h.ite (h.throttle io) (h.ite (h.recover prev io) (h.pure ()))

theorem thermalTick (now : UInt32) (io : ThermalInput)
    (hcheck : P (update fun w ↦ { w with lastThermalCheckMs := now } : Work Unit))
    (hread : P (readLevel io.reading)) (hdrain : P (drainTxQ >>= reportDropped)) :
    P (thermalTick now io) := by
  refine h.bind h.read fun _ ↦ h.ite (h.pure ()) <| h.bind hcheck fun _ ↦
    h.bind hread fun next ↦ h.bind h.read fun w ↦ ?_
  cases next with
  | none => exact h.pure ()
  | some level => exact h.ite (h.enterLevel _ _ io hdrain) (h.pure ())

end GuardRules

end RadioService
