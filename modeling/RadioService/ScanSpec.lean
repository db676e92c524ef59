import RadioService.Setup

/-!
# What a scan does

`startScan` enters the first channel, and `scanTick` leaves a channel when its
dwell is over or a consensus frame has been counted on it: it reports the
channel and goes on to the next one, or back home behind the last.  Both are
worked out on the settings, and on the rest of the worker.
-/

namespace RadioService

open Traced

/-! ## The settings -/

/-- The stored frequency is `hz` whatever the chip says to it. -/
def Settings.tunedTo (s : Settings) (hz : UInt32) (st : Int16) : Settings :=
  { s with
    chipFreqHz := if st = errNone then hz else s.chipFreqHz
    cfg := { s.cfg with frequencyHz := hz } }

def Settings.stored (s : Settings) (p : ScanParams) (now : UInt32) : Settings :=
  { s with scan := p, scanIdx := 0, scanDwellUntil := now + p.dwellMs, scanActive := true }

def Settings.scanning (s : Settings) (p : ScanParams) (now : UInt32) (freqSt : Int16) :
    Settings :=
  let s' := { s.stored p now with
    preScanFreqHz :=
      if !s.scanActive && s.cfg.frequencyHz > 0 then s.cfg.frequencyHz else s.preScanFreqHz }
  if s.radioOk && p.startHz > 0 then s'.tunedTo p.startHz freqSt else s'

def Settings.homeward (s : Settings) (freqSt : Int16) : Settings :=
  let s' := { s with scanActive := false }
  if s.radioOk && s.preScanFreqHz > 0 then s'.tunedTo s.preScanFreqHz freqSt else s'

def Settings.onward (s : Settings) (now : UInt32) (freqSt : Int16) : Settings :=
  { s.tunedTo (channelHz s.scan s.scanIdx) freqSt with scanDwellUntil := now + s.scan.dwellMs }

/-- The channel of these settings is the last of its sweep. -/
def Settings.onLast (s : Settings) : Bool := s.scanIdx + 1 ≥ s.scan.count

/-- The settings behind a tick that leaves a channel. -/
def Settings.leaveChannel (s : Settings) (now : UInt32) (freqSt : Int16) : Settings :=
  let s' := { s with scanIdx := s.scanIdx + 1 }
  if s.onLast then s'.homeward freqSt else s'.onward now freqSt

theorem Settings.homeward_idle (s : Settings) (freqSt : Int16) :
    (s.homeward freqSt).scanActive = false ∧ (s.homeward freqSt).scan = s.scan := by
  unfold Settings.homeward
  dsimp only
  split <;> exact ⟨rfl, rfl⟩

/-- Retuning a scan, with whatever is stored along with the frequency. -/
theorem tune_does {g : Settings → Settings} {f : RadioWorker → RadioWorker}
    (hf : (fun w ↦ (f w).toSettings) = fun w ↦ g w.toSettings) (hz : UInt32) (st : Int16)
    (s : Settings) :
    Does (do
      standby
      discard (setFrequency hz st)
      update f
      armReceive) s ()
      (g { s with chipFreqHz := if st = errNone then hz else s.chipFreqHz }) [] := by
  refine Does.then_keeps .standby ?_
  have htune := (Does.setFrequency hz st s).discard
  have hsame : (if st = errNone then { s with chipFreqHz := hz } else s) =
      { s with chipFreqHz := if st = errNone then hz else s.chipFreqHz } := by
    split <;> rfl
  rw [hsame] at htune
  exact htune.bind_silent (Does.update g hf (Does.keeps .armReceive _))

theorem beginScan_does (p : ScanParams) (now : UInt32) (freqSt : Int16) (s : Settings) :
    Does (beginScan p now freqSt) s ()
      (if s.radioOk && p.startHz > 0 then (s.stored p now).tunedTo p.startHz freqSt
      else s.stored p now) [] := by
  refine Does.update (fun s ↦ s.stored p now) rfl (Does.read fun w hw ↦ ?_)
  have hok : w.radioOk = s.radioOk := by rw [hw]; rfl
  rw [hok]
  split
  · exact tune_does (g := fun s ↦ { s with cfg := { s.cfg with frequencyHz := p.startHz } }) rfl
      p.startHz freqSt _
  · exact Does.pure _ _

theorem startScan_does (p : ScanParams) (now : UInt32) (freqSt : Int16) (s : Settings) :
    Does (startScan p now freqSt) s () (s.scanning p now freqSt) [] := by
  refine Does.read fun w hw ↦ ?_
  subst hw
  unfold Settings.scanning
  split
  · exact Does.update (fun s ↦ { s with preScanFreqHz := s.cfg.frequencyHz }) rfl
      (beginScan_does p now freqSt _)
  · exact beginScan_does p now freqSt _

theorem endScan_does (freqSt : Int16) (s : Settings) :
    Does (endScan freqSt) s () (s.homeward freqSt) [] := by
  refine Does.update (fun s ↦ { s with scanActive := false }) rfl (Does.read fun w hw ↦ ?_)
  have hok : w.radioOk = s.radioOk := by rw [hw]
  have hpre : w.preScanFreqHz = s.preScanFreqHz := by rw [hw]
  rw [hok, hpre]
  unfold Settings.homeward
  split
  · exact tune_does
      (g := fun s ↦ { s with cfg := { s.cfg with frequencyHz := s.preScanFreqHz } }) rfl
      s.preScanFreqHz freqSt _
  · exact Does.keeps .armReceive _

theorem nextChannel_does (now : UInt32) (freqSt : Int16) (s : Settings) :
    Does (nextChannel now freqSt) s () (s.onward now freqSt) [] := by
  refine Does.read fun w hw ↦ ?_
  subst hw
  exact tune_does (g := fun t ↦ { t with
    cfg := { t.cfg with frequencyHz := channelHz w.scan w.scanIdx }
    scanDwellUntil := now + t.scan.dwellMs }) rfl _ freqSt _

/-! ## A tick -/

/-- Nothing has come of the channel yet, and its dwell is not over. -/
def dwelling (w : RadioWorker) (now : UInt32) : Bool :=
  w.scanConsensus == 0 && before now w.scanDwellUntil

def RadioWorker.report (w : RadioWorker) : Effect :=
  .onScanResult (channelHz w.scan w.scanIdx) w.scanFrames w.scanConsensus w.scanBestRssi

/-- What `scanTick` does to a channel that it leaves. -/
def moveOn (now : UInt32) (freqSt : Int16) : Work Unit := do
  update fun w ↦ { w with scanIdx := w.scanIdx + 1 }
  let w ← read
  if w.scanIdx ≥ w.scan.count then
    endScan freqSt
  else
    nextChannel now freqSt

theorem scanTick_run (now : UInt32) (freqSt : Int16) (w : RadioWorker) :
    (scanTick now freqSt).run w =
      if dwelling w now then ⟨(), w, []⟩
      else ((moveOn now freqSt).run w).prepend [(w, w.report)] := by
  have hrun : (scanTick now freqSt).run w =
      (if dwelling w now then pure () else do
        issue w.report
        moveOn now freqSt : Work Unit).run w := rfl
  rw [hrun, run_ite]
  rfl

theorem moveOn_does (now : UInt32) (freqSt : Int16) (s : Settings) :
    Does (moveOn now freqSt) s () (s.leaveChannel now freqSt) [] := by
  refine Does.update (fun s ↦ { s with scanIdx := s.scanIdx + 1 }) rfl (Does.read fun w hw ↦ ?_)
  have hlast : w.scanIdx ≥ w.scan.count ↔ s.onLast = true := by
    rw [hw, Settings.onLast, decide_eq_true_iff]
  unfold Settings.leaveChannel
  simp only [hlast]
  split
  · exact endScan_does freqSt _
  · exact nextChannel_does now freqSt _

/-! ## The rest of the worker -/

def RadioWorker.freshTally (w : RadioWorker) : RadioWorker :=
  { w with scanFrames := 0, scanConsensus := 0, scanBestRssi := -128 }

theorem nextChannel_traffic (now : UInt32) (freqSt : Int16) (w : RadioWorker) :
    ((nextChannel now freqSt).run w).state.traffic = w.traffic.freshTally ∧
      ∀ p ∈ ((nextChannel now freqSt).run w).log, p.2.setup = true := by
  have hfront : SetsUp (do
      standby
      discard (setFrequency (channelHz w.scan w.scanIdx) freqSt)) :=
    SetsUp.rules.standby.bind fun _ ↦ (SetsUp.rules.freq _ _).discard
  obtain ⟨hstate, hlog⟩ := hfront w
  let w₁ : RadioWorker := ((do
    standby
    discard (setFrequency (channelHz w.scan w.scanIdx) freqSt) : Work Unit).run w).state
  let w₂ : RadioWorker := { w₁ with
    cfg := { w₁.cfg with frequencyHz := channelHz w.scan w.scanIdx }, scanFrames := 0
    scanConsensus := 0, scanBestRssi := -128, scanDwellUntil := now + w₁.scan.dwellMs }
  obtain ⟨hstate', hlog'⟩ := SetsUp.rules.arm w₂
  have hrun : (nextChannel now freqSt).run w =
      ((armReceive.run w₂).prepend ((do
        standby
        discard (setFrequency (channelHz w.scan w.scanIdx) freqSt) : Work Unit).run w).log) := by
    simp [nextChannel, w₁, w₂]
  rw [hrun]
  refine ⟨hstate'.trans ?_, fun p hp ↦ ?_⟩
  · exact congrArg RadioWorker.freshTally hstate
  · rcases List.mem_append.mp hp with hp | hp
    · exact (hlog p hp).2
    · exact (hlog' p hp).2

theorem moveOn_traffic (now : UInt32) (freqSt : Int16) (w : RadioWorker) :
    ((moveOn now freqSt).run w).state.traffic =
        (if w.toSettings.onLast then w.traffic else w.traffic.freshTally) ∧
      ∀ p ∈ ((moveOn now freqSt).run w).log, p.2.setup = true := by
  have hrun : (moveOn now freqSt).run w =
      (if w.scanIdx + 1 ≥ w.scan.count then endScan freqSt else nextChannel now freqSt).run
        { w with scanIdx := w.scanIdx + 1 } := rfl
  rw [hrun]
  by_cases hlast : w.scanIdx + 1 ≥ w.scan.count
  · rw [if_pos hlast, if_pos (show w.toSettings.onLast = true from decide_eq_true hlast)]
    obtain ⟨hstate, hlog⟩ := SetsUp.endScan freqSt { w with scanIdx := w.scanIdx + 1 }
    exact ⟨hstate, fun p hp ↦ (hlog p hp).2⟩
  · rw [if_neg hlast, if_neg (by simpa [Settings.onLast] using hlast)]
    exact nextChannel_traffic now freqSt _

theorem startScan_traffic (p : ScanParams) (now : UInt32) (freqSt : Int16) (w : RadioWorker) :
    ((startScan p now freqSt).run w).state.traffic =
        { w.traffic.freshTally with st := { w.traffic.st with pendingTxValid := 0 } } ∧
      ∀ e ∈ ((startScan p now freqSt).run w).log, e.2.setup = true := by
  have htune : SetsUp (do
      standby
      discard (setFrequency p.startHz freqSt)
      update fun w ↦ { w with cfg := { w.cfg with frequencyHz := p.startHz } }
      armReceive) :=
    SetsUp.rules.standby.bind fun _ ↦ (SetsUp.rules.freq _ _).discard.bind fun _ ↦
      Frame.updating rfl SetsUp.rules.arm
  have hbegin : ∀ v : RadioWorker, ((beginScan p now freqSt).run v).state.traffic =
        { v.traffic.freshTally with st := { v.traffic.st with pendingTxValid := 0 } } ∧
      ∀ e ∈ ((beginScan p now freqSt).run v).log, e.2.setup = true := by
    intro v
    obtain ⟨hstate, hlog⟩ := (htune.ite (Frame.pure ()) : SetsUp (if v.radioOk && p.startHz > 0
      then _ else _)) { v with
        scan := p, scanIdx := 0, scanFrames := 0, scanConsensus := 0, scanBestRssi := -128
        scanDwellUntil := now + p.dwellMs, scanActive := true
        st := { v.st with pendingTxValid := 0 } }
    exact ⟨hstate, fun e he ↦ (hlog e he).2⟩
  rw [startScan_run]
  split
  · exact hbegin { w with preScanFreqHz := w.cfg.frequencyHz }
  · exact hbegin w

end RadioService
