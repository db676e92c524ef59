import RadioService.Listening
import RadioService.SetupRules

/-!
# What the chip was told

Next to its own fields the worker carries the last mode, frequency and power
that the chip was given.  They are what a log of the driver calls says, for
every function of the worker.
-/

namespace RadioService

open Burst Traced Machine

structure Chip where
  mode : ChipMode := .standby
  freqHz : UInt32 := 0
  powerDbm : Int8 := 0
deriving DecidableEq

/-- What a call tells the chip. -/
def Chip.after (c : Chip) : Effect → Chip
  | .radio .standby | .radio .finishTransmit => { c with mode := .standby }
  | .radio .startReceive => { c with mode := .receive }
  | .radio (.startTransmit _ _ _) => { c with mode := .transmit }
  | .radio (.setFrequency hz st) => if st = errNone then { c with freqHz := hz } else c
  | .radio (.setOutputPower dbm st) => if st = errNone then { c with powerDbm := dbm } else c
  | _ => c

def RadioWorker.chip (w : RadioWorker) : Chip := ⟨w.chipMode, w.chipFreqHz, w.chipPowerDbm⟩

/-- The chip of the worker follows the driver calls of `m`. -/
abbrev TellsChip {α : Type} (m : Work α) : Prop := Follows RadioWorker.chip Chip.after m

namespace TellsChip

theorem standby : TellsChip standby := Follows.signal fun _ ↦ rfl

theorem startReceive : TellsChip startReceive := Follows.signal fun _ ↦ rfl

theorem startTransmit (frame : TxFrame) (pkt : List UInt8) (st : Int16) :
    TellsChip (startTransmit frame pkt st) := by
  have hstart : TellsChip (do
      radioCall (.startTransmit frame pkt st)
      update fun w ↦ { w with chipMode := .transmit }) := Follows.signal fun _ ↦ rfl
  exact hstart.bind fun _ ↦ Follows.pure st

theorem finishTransmit : TellsChip finishTransmit := Follows.signal fun _ ↦ rfl

theorem armReceive : TellsChip armReceive :=
  Follows.read.bind fun _ ↦ (Follows.pure ()).ite <|
    startReceive.bind fun _ ↦ Follows.update fun _ ↦ rfl

theorem setFrequency (hz : UInt32) (st : Int16) : TellsChip (setFrequency hz st) := by
  intro w
  by_cases hst : st = errNone <;>
    simp [RadioService.setFrequency, radioCall, RadioWorker.chip, Chip.after, hst]

theorem setOutputPower (dbm : Int8) (st : Int16) : TellsChip (setOutputPower dbm st) := by
  intro w
  by_cases hst : st = errNone <;>
    simp [RadioService.setOutputPower, radioCall, RadioWorker.chip, Chip.after, hst]

theorem rules : GuardRules fun m ↦ TellsChip m where
  pure := Follows.pure
  read := Follows.read
  bind := Follows.bind
  standby := standby
  arm := armReceive
  freq := setFrequency
  power := setOutputPower
  start {op} hop := Follows.issue fun _ ↦ by cases op <;> first | rfl | cases hop
  store _ := Follows.update fun _ ↦ rfl
  pin _ _ := Follows.issue fun _ ↦ rfl
  guard hu := Follows.update fun w ↦ by
    obtain ⟨_, _, _, _, _, _, hw⟩ := hu w
    rw [hw]
    rfl

/-! ## Scans -/

theorem beginScan (p : ScanParams) (now : UInt32) (freqSt : Int16) :
    TellsChip (beginScan p now freqSt) :=
  Follows.updating rfl <| Follows.read.bind fun _ ↦ Follows.ite (standby.bind fun _ ↦
    (setFrequency _ _).discard.bind fun _ ↦ Follows.updating rfl armReceive) (Follows.pure ())

theorem startScan (p : ScanParams) (now : UInt32) (freqSt : Int16) :
    TellsChip (startScan p now freqSt) :=
  Follows.read.bind fun _ ↦
    Follows.ite (Follows.updating rfl (beginScan p now freqSt)) (beginScan p now freqSt)

theorem scanTick (now : UInt32) (freqSt : Int16) : TellsChip (scanTick now freqSt) := by
  have hend : TellsChip (endScan freqSt) :=
    Follows.updating rfl <| Follows.read.bind fun _ ↦ Follows.ite (standby.bind fun _ ↦
      (setFrequency _ _).discard.bind fun _ ↦ Follows.updating rfl armReceive) armReceive
  have hnext : TellsChip (nextChannel now freqSt) :=
    Follows.read.bind fun _ ↦ standby.bind fun _ ↦ (setFrequency _ _).discard.bind fun _ ↦
      Follows.updating rfl armReceive
  exact Follows.read.bind fun _ ↦ (Follows.pure ()).ite <|
    (Follows.issue fun _ ↦ rfl).bind fun _ ↦ Follows.updating rfl <|
      Follows.read.bind fun _ ↦ hend.ite hnext

/-! ## Transmitting -/

theorem enqueueTx (frame : TxFrame) : TellsChip (enqueueTx frame) :=
  Follows.read.bind fun _ ↦ (Follows.pure _).ite <| Follows.read.bind fun _ ↦
    Follows.ite (Follows.updating rfl (Follows.pure _)) (Follows.updating rfl (Follows.pure _))

theorem burstFrame (frame : TxFrame) (io : BurstInput) : TellsChip (burstFrame frame io) := by
  have hrules : TxRules frame fun m ↦ TellsChip m :=
    { pure := Follows.pure
      read := Follows.read
      bind := Follows.bind
      standby := standby
      arm := armReceive
      start := startTransmit frame
      finish := finishTransmit
      poll := fun _ ↦ Follows.issue fun _ ↦ rfl
      count := fun hu ↦ Follows.update fun w ↦ by
        obtain ⟨_, _, hw, -⟩ := hu w
        rw [hw]
        rfl }
  exact hrules.burstFrame io

theorem serviceTxQueue (io : BurstInput) : TellsChip (serviceTxQueue io) := by
  have hpop : TellsChip popFrame := by
    unfold RadioService.popFrame
    refine Follows.read.bind fun w ↦ ?_
    split
    · exact Follows.pure none
    · exact Follows.updating rfl (Follows.pure _)
  refine Follows.read.bind fun w ↦ (Follows.pure ()).ite (hpop.bind fun frame ↦ ?_)
  cases frame with
  | none => exact Follows.pure ()
  | some frame => exact (burstFrame frame io).bind fun _ ↦ Follows.issue fun _ ↦ rfl

/-! ## Receiving -/

theorem rxLoop (is : List RxStep) (l : RxLocals) : TellsChip (rxLoop is l) := by
  have hrules : RxRules fun m ↦ TellsChip m :=
    { pure := Follows.pure
      bind := Follows.bind
      ask := fun {op} hop ↦ Follows.issue fun _ ↦ by cases op <;> first | rfl | cases hop
      arm := armReceive
      count := fun hu ↦ Follows.update fun w ↦ by
        obtain ⟨st, hw⟩ := hu w
        rw [hw]
        rfl
      read := fun _ _ _ ↦ Follows.signal fun _ ↦ rfl
      fail := fun _ _ _ _ _ ↦ Follows.issue fun _ ↦ rfl
      deliver := fun ps ↦ Follows.issueAll fun e he _ ↦ by
        obtain ⟨p, -, rfl⟩ := List.mem_map.mp he
        rfl }
  exact hrules.rxLoop is l

/-! ## The thermal guard -/

theorem drain : TellsChip (do
    let frames ← drainTxQ
    reportDropped frames) := by
  refine Follows.bind (Follows.read.bind fun w ↦ Follows.updating rfl (Follows.pure w.txQ))
    fun frames ↦ Follows.issueAll fun e he _ ↦ ?_
  obtain ⟨f, -, rfl⟩ := List.mem_map.mp he
  rfl

theorem readLevel (r : ThermalReading) : TellsChip (readLevel r) := by
  refine Follows.of_frame (readLevel_sensorOnly r) (fun w w' hw ↦ ?_) fun _ e he c ↦ ?_
  · exact (congrArg RadioWorker.chip hw :)
  · cases e <;> first | rfl | cases he

theorem thermalTick (now : UInt32) (io : ThermalInput) : TellsChip (thermalTick now io) :=
  rules.thermalTick now io (Follows.update fun _ ↦ rfl) (readLevel _) drain

/-! ## Calls -/

theorem pollOnce (io : PollInput) : TellsChip (pollOnce io) := by
  have hgated : ∀ w : RadioWorker, TellsChip (do
      if !w.scanActive then
        RadioService.serviceTxQueue io.burst : Work Unit) :=
    fun w ↦ (serviceTxQueue io.burst).ite (Follows.pure ())
  have hrest : TellsChip (afterScan io) :=
    Follows.read.bind fun w ↦ (Follows.pure ()).ite <| (hgated w).ite <|
      (rxLoop _ _).bind fun _ ↦ Follows.read.bind hgated
  exact (thermalTick _ _).bind fun _ ↦ Follows.read.bind fun _ ↦ (Follows.pure ()).ite <|
    Follows.ite ((scanTick _ _).bind fun _ ↦ hrest) hrest

theorem exec (c : Call) : TellsChip c.exec := by
  cases c with
  | applyConfig cfg io => exact (rules.applyConfig cfg io).discard
  | startScan p now freqSt => exact startScan p now freqSt
  | enqueueTx frame => exact (enqueueTx frame).discard
  | pollOnce io => exact pollOnce io

end TellsChip

/-! ## Re-arming -/

/-- The operations that change the mode of the chip. -/
def Effect.modal : Effect → Bool
  | .radio .standby | .radio (.startTransmit _ _ _) | .radio .finishTransmit
  | .radio .startReceive => true
  | _ => false

def lastModal (es : List Effect) : Option Effect := (es.filter Effect.modal).getLast?

theorem lastModal_of_receive {c : Chip} {es : List Effect} (hc : c.mode ≠ .receive)
    (h : (es.foldl Chip.after c).mode = .receive) :
    lastModal es = some (.radio .startReceive) := by
  induction es using List.reverseRecOn with
  | nil => exact absurd h hc
  | append_singleton es e ih =>
      rw [List.foldl_append, List.foldl_cons, List.foldl_nil] at h
      generalize es.foldl Chip.after c = c' at *
      rw [lastModal, List.filter_append]
      cases hmodal : e.modal with
      | true =>
          -- the only operation behind which the chip receives
          have he : e = .radio .startReceive := by
            unfold Effect.modal at hmodal
            split at hmodal <;> first | rfl | cases h | cases hmodal
          rw [List.filter_cons_of_pos hmodal, he]
          exact List.getLast?_concat
      | false =>
          have hsame : (c'.after e).mode = c'.mode := by
            unfold Chip.after
            split <;> first | rfl | (split <;> rfl) | cases hmodal
          rw [List.filter_cons_of_neg (by simp [hmodal]), List.filter_nil, List.append_nil]
          exact ih (hsame.symm.trans h)

theorem init_listens (io : InitInput) : Listening ((init 44 io).run {}).state := by
  by_cases hio : io.ok
  · exact fun _ ↦ init_receives (init_ok hio 44 {} {} rfl).1
  · obtain ⟨ws, hdoes, -⟩ := init_failed hio 44 {}
    have hdown : ((init 44 io).run {}).state.radioOk = false :=
      (congrArg Settings.radioOk (hdoes {} rfl).2.1 :)
    exact fun _ hok ↦ absurd (hdown.symm.trans hok) (by decide)

/-- Between calls, the last thing done to the mode of a radio that is up, has
power and may receive was to start receiving. -/
theorem receive_rearmed (io : InitInput) (calls : List Call) :
    let start := (init 44 io).run {}
    let (w, log) := run workerStep start.state calls
    w.radioOk = true → w.cfg.role ≠ 1 → w.thermalPoweredDown = false →
      lastModal (start.events ++ log.map Prod.snd) = some (.radio .startReceive) := by
  intro start hok hrole hup
  have hlistens := (init_listens io).run calls
  have hmode := hlistens hup hok hrole
  have hchip := Follows.run TellsChip.exec start.state calls
  rw [TellsChip.rules.init 44 io {}, ← List.foldl_append] at hchip
  refine lastModal_of_receive (c := RadioWorker.chip {}) nofun ?_
  exact (congrArg Chip.mode hchip).symm.trans hmode

/-- Behind a CONFIG that the chip refused and a scan begun on top of it. -/
theorem receive_rearmed_refused :
    let start := (init 44 {}).run {}
    let (_, log) := run workerStep start.state
      [.applyConfig { frequencyHz := 920000000 } ⟨-1, 0⟩, .startScan {} 1000 0]
    lastModal (start.events ++ log.map Prod.snd) = some (.radio .startReceive) :=
  receive_rearmed {} [.applyConfig { frequencyHz := 920000000 } ⟨-1, 0⟩, .startScan {} 1000 0]
    (by decide) (by decide) (by decide)

end RadioService
