import RadioService.WorkerRun

/-!
# The radio listens

Between calls a radio that is up is receiving, unless its role forbids it:
every function that takes the chip out of receiving puts it back before it
returns.
-/

namespace RadioService

open Burst Traced Machine

/-- An initialised radio that is not TX-only is receiving. -/
def Receiving (w : RadioWorker) : Prop :=
  w.radioOk = true → w.cfg.role ≠ 1 → w.chipMode = .receive

/-- A radio with power is receiving. -/
def Listening (w : RadioWorker) : Prop := w.thermalPoweredDown = false → Receiving w

theorem listening_of_down {w : RadioWorker} (h : w.thermalPoweredDown = true) : Listening w :=
  fun hup ↦ absurd (h.symm.trans hup) (by decide)

theorem armReceive_receives : Ensures Receiving armReceive := by
  intro w hok hrole
  rw [(KeepsSettings.armReceive w).1] at hok hrole
  simp [armReceive, startReceive, radioCall, hok, hrole]

theorem armReceive_listens : Ensures Listening armReceive :=
  fun w _ ↦ armReceive_receives w

theorem init_receives {gpio : ℕ} {io : InitInput} {w : RadioWorker}
    (hval : ((init gpio io).run w).val = true) : Receiving ((init gpio io).run w).state := by
  have hfailed : Returns (fun ok w ↦ ok = true → Receiving w) (do
      update fun w ↦ { w with inInit := false }
      return false : Work Bool) := fun _ h ↦ by cases h
  have hdone : Keeps Receiving (do
      update fun w ↦ { w with inInit := false }
      return true : Work Bool) :=
    Keeps.bind (Keeps.update fun _ h ↦ h) fun _ ↦ Keeps.pure true
  have harmed : Ensures Receiving (do
      armReceive
      update fun w ↦ { w with inInit := false }
      return true : Work Bool) := armReceive_receives.bind fun _ ↦ hdone
  have hinit : Returns (fun ok w ↦ ok = true → Receiving w) (init gpio io) :=
    Returns.after _ fun _ ↦ Returns.after _ fun _ ↦ Returns.after _ fun _ ↦
      Returns.after _ fun _ ↦ Returns.ite hfailed <| Returns.after _ fun _ ↦
        Returns.after _ fun _ w _ ↦ harmed w
  exact hinit w hval

namespace Listening

theorem armed {α : Type} (a : α) :
    Ensures Listening (armReceive >>= fun _ ↦ (pure a : Work α)) :=
  armReceive_listens.bind fun _ ↦ Keeps.pure a

/-! ## Configuration and scans -/

theorem retune (clamped : Config) (prevPower : Int8) (io : ConfigInput) :
    Ensures Listening (retune clamped prevPower io) := by
  have hrest : ∀ st : Int16, Ensures Listening (do
      if st ≠ errNone then
        armReceive
        return .error "set frequency failed"
      if clamped.txPowerDbm ≠ prevPower then
        discard (setOutputPower clamped.txPowerDbm io.powerSt)
      armReceive
      return .ok () : Work (Except String Unit)) := fun st ↦
    (armed _).ite ((Ensures.after _ fun _ ↦ armed _).ite (armed _))
  exact Ensures.ite (Ensures.after _ hrest) (Ensures.after _ hrest)

theorem applyConfig (cfg : Config) (io : ConfigInput) : Keeps Listening (applyConfig cfg io) :=
  Keeps.read.bind fun _ ↦ (Keeps.pure _).ite <| (Keeps.pure _).ite <| Ensures.keeps <|
    Ensures.after _ fun _ ↦ Ensures.after _ fun _ ↦ retune _ _ io

theorem beginScan (p : ScanParams) (now : UInt32) (freqSt : Int16) :
    Keeps Listening (beginScan p now freqSt) :=
  Keeps.updating rfl <| Keeps.read.bind fun _ ↦ Keeps.ite (Ensures.after _ fun _ ↦
    Ensures.after _ fun _ ↦ Ensures.after _ fun _ ↦ armReceive_listens).keeps (Keeps.pure ())

theorem startScan (p : ScanParams) (now : UInt32) (freqSt : Int16) :
    Keeps Listening (startScan p now freqSt) :=
  Keeps.read.bind fun _ ↦
    Keeps.ite (Keeps.updating rfl (beginScan p now freqSt)) (beginScan p now freqSt)

theorem scanTick (now : UInt32) (freqSt : Int16) : Keeps Listening (scanTick now freqSt) := by
  have hend : Ensures Listening (endScan freqSt) :=
    Ensures.after _ fun _ ↦ Ensures.after _ fun _ ↦ Ensures.ite
      (Ensures.after _ fun _ ↦ Ensures.after _ fun _ ↦ Ensures.after _ fun _ ↦
        armReceive_listens) armReceive_listens
  have hnext : Ensures Listening (nextChannel now freqSt) :=
    Ensures.after _ fun _ ↦ Ensures.after _ fun _ ↦ Ensures.after _ fun _ ↦
      Ensures.after _ fun _ ↦ armReceive_listens
  exact Keeps.read.bind fun _ ↦ (Keeps.pure ()).ite <| (Keeps.issue _).bind fun _ ↦
    Keeps.updating rfl <| Keeps.read.bind fun _ ↦ (hend.ite hnext).keeps

/-! ## Traffic -/

theorem enqueueTx (frame : TxFrame) : Keeps Listening (enqueueTx frame) :=
  Keeps.read.bind fun _ ↦ (Keeps.pure _).ite <| Keeps.read.bind fun _ ↦
    Keeps.ite (Keeps.updating rfl (Keeps.pure _)) (Keeps.updating rfl (Keeps.pure _))

theorem burstFrame (frame : TxFrame) (io : BurstInput) :
    Ensures Listening (burstFrame frame io) :=
  Ensures.after _ fun _ ↦ Ensures.after _ fun _ ↦ Ensures.after _ fun _ ↦
    Ensures.after _ fun _ ↦ armed _

theorem serviceTxQueue (io : BurstInput) : Keeps Listening (serviceTxQueue io) := by
  have hpop : Keeps Listening popFrame := by
    refine Keeps.read.bind fun w ↦ ?_
    split
    · exact Keeps.pure none
    · exact Keeps.updating rfl (Keeps.pure _)
  refine Keeps.read.bind fun w ↦ (Keeps.pure ()).ite (hpop.bind fun frame ↦ ?_)
  cases frame with
  | none => exact Keeps.pure ()
  | some frame => exact (burstFrame frame io).keeps.bind fun _ ↦ Keeps.issue _

theorem rxLoop (is : List RxStep) (l : RxLocals) : Keeps Listening (rxLoop is l) := by
  have hrules : RxRules fun m ↦ Keeps Listening m :=
    { pure := Keeps.pure
      bind := Keeps.bind
      ask := fun _ ↦ Keeps.issue _
      arm := armReceive_listens.keeps
      count := fun hu ↦ Keeps.update fun w hw ↦ by
        obtain ⟨st, hsame⟩ := hu w
        rw [hsame]
        exact hw
      read := fun _ _ _ ↦ (Keeps.issue _).bind fun _ ↦ Keeps.update fun _ hw ↦ hw
      fail := fun _ _ _ _ _ ↦ Keeps.issue _
      deliver := fun _ ↦ Keeps.issueAll _ }
  exact hrules.rxLoop is l

/-! ## The thermal guard -/

theorem throttle (io : ThermalInput) : Keeps Listening (throttle io) :=
  Keeps.read.bind fun _ ↦ Keeps.ite (Ensures.after _ fun _ ↦ Ensures.after _ fun _ ↦
    armReceive_listens).keeps (Keeps.pure ())

/-- A successful `init` ends listening, a failed one without power. -/
theorem reviveRadio (io : ThermalInput) {w : RadioWorker} (hw : w.thermalPoweredDown = true) :
    Listening ((reviveRadio io).run w).state := by
  have hrun : (RadioService.reviveRadio io).run w =
      ((if ((init w.powerGpio io.init).run w).val then (do
          update fun w ↦ { w with thermalPoweredDown := false }
          discard (RadioService.applyConfig w.cfg io.config)) else pure () : Work Unit).run
        ((init w.powerGpio io.init).run w).state).prepend
          ((init w.powerGpio io.init).run w).log := rfl
  rw [hrun, Outcome.prepend_state]
  split
  · rename_i hval
    have hup : Listening { ((init w.powerGpio io.init).run w).state with
        thermalPoweredDown := false } := fun _ ↦ init_receives hval
    exact (applyConfig w.cfg io.config).discard _ hup
  · rename_i hval
    have hio : ¬io.init.ok := fun hio ↦ hval (init_ok hio w.powerGpio w.toSettings w rfl).1
    obtain ⟨ws, hdoes, -⟩ := init_failed hio w.powerGpio w.toSettings
    have hdown := congrArg Settings.thermalPoweredDown (hdoes w rfl).2.1
    exact listening_of_down (hdown.trans hw)

theorem recover (prev : Int) (io : ThermalInput) : Keeps Listening (recover prev io) := by
  intro w hw
  have hrun : (RadioService.recover prev io).run w =
      (if w.thermalPoweredDown then RadioService.reviveRadio io
      else if prev == 1 && w.radioOk then (do
        standby
        discard (setOutputPower w.cfg.txPowerDbm io.powerSt)
        armReceive) else pure () : Work Unit).run w := rfl
  rw [hrun]
  split
  · exact reviveRadio io ‹_›
  · exact Keeps.ite (Ensures.after _ fun _ ↦ Ensures.after _ fun _ ↦
      armReceive_listens).keeps (Keeps.pure ()) w hw

theorem enterLevel (prev level : Int) (io : ThermalInput) :
    Keeps Listening (enterLevel prev level io) := by
  by_cases hcut : level = 2
  · subst hcut
    exact fun w _ ↦ listening_of_down
      (congrArg (·.thermalPoweredDown) (enterLevel_cutoff prev io w.toSettings w rfl).2.1)
  · refine Keeps.updating rfl ?_
    rw [if_neg (by simpa using hcut)]
    exact (throttle io).ite ((recover prev io).ite (Keeps.pure ()))

theorem thermalTick (now : UInt32) (io : ThermalInput) :
    Keeps Listening (thermalTick now io) := by
  intro w hw
  obtain ⟨w', l, hsame, -, hrun⟩ := thermalTick_run now io w
  have hw' : Listening w' := by
    have hlift : ∀ v : RadioWorker, Listening v.noSensor ↔ Listening v := fun _ ↦ Iff.rfl
    rw [← hlift, hsame]
    exact hw
  rw [hrun]
  split
  · exact hw'
  · exact enterLevel _ _ io w' hw'

theorem afterScan (io : PollInput) : Keeps Listening (afterScan io) := by
  have hgated : ∀ w : RadioWorker, Keeps Listening (do
      if !w.scanActive then
        RadioService.serviceTxQueue io.burst : Work Unit) :=
    fun w ↦ (serviceTxQueue io.burst).ite (Keeps.pure ())
  exact Keeps.read.bind fun w ↦ (Keeps.pure ()).ite <| (hgated w).ite <|
    (rxLoop _ _).bind fun _ ↦ Keeps.read.bind hgated

theorem afterTick (io : PollInput) : Keeps Listening (afterTick io) :=
  Keeps.read.bind fun _ ↦ (Keeps.pure ()).ite <|
    Keeps.ite ((scanTick _ _).bind fun _ ↦ afterScan io) (afterScan io)

theorem pollOnce (io : PollInput) : Keeps Listening (pollOnce io) :=
  (thermalTick _ _).bind fun _ ↦ afterTick io

theorem exec (c : Call) : Keeps Listening c.exec := by
  cases c with
  | applyConfig cfg io => exact (applyConfig cfg io).discard
  | startScan p now freqSt => exact startScan p now freqSt
  | enqueueTx frame => exact (enqueueTx frame).discard
  | pollOnce io => exact pollOnce io

/-- Whatever is called, a radio that listens goes on listening. -/
theorem run {w : RadioWorker} (h : Listening w) (calls : List Call) :
    Listening (run workerStep w calls).1 :=
  Along.invariant (c := fun _ _ ↦ True) (fun w c hw _ ↦ Listening.exec c w hw) h
    (Along.of_forall (fun _ _ _ ↦ trivial) _)

end Listening

end RadioService
