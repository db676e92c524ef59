import RadioService.RxTurn
import RadioService.Tally

/-!
# The frequency that a report is about

A sweep stores the frequency of its channel whether or not the chip has taken it.
What is heard is heard on the frequency of the chip, and is reported under the
frequency of the channel.
-/

namespace RadioService

open Burst Traced Machine

/-- The stored frequency is the one the chip is on. -/
def OnAir (s : Settings) : Prop := s.cfg.frequencyHz = s.chipFreqHz

/-! ## What is heard and what is reported -/

inductive TuneEvent where
  | heard (freqHz : UInt32)
  | reported (freqHz frames : UInt32)
deriving DecidableEq

/-- A packet is heard on the frequency of the chip. -/
def tuneEvent? (p : RadioWorker × Effect) : Option TuneEvent :=
  match p.2 with
  | .onScanResult freqHz frames _ _ => some (.reported freqHz frames)
  | e => e.read?.map fun _ ↦ .heard p.1.chipFreqHz

def tuneEvents (log : List (RadioWorker × Effect)) : List TuneEvent := log.filterMap tuneEvent?

@[simp] theorem tuneEvents_append (l l' : List (RadioWorker × Effect)) :
    tuneEvents (l ++ l') = tuneEvents l ++ tuneEvents l' := List.filterMap_append

/-- Every report of frames names the frequency on which everything since the report
before has been heard. -/
def Attributed : List UInt32 → List TuneEvent → Prop
  | _, [] => True
  | heard, .heard hz :: es => Attributed (hz :: heard) es
  | heard, .reported hz frames :: es =>
    (frames > 0 → ∀ hz' ∈ heard, hz' = hz) ∧ Attributed [] es

/-- What has been heard since the last report. -/
def unreported : List UInt32 → List TuneEvent → List UInt32
  | heard, [] => heard
  | heard, .heard hz :: es => unreported (hz :: heard) es
  | _, .reported _ _ :: es => unreported [] es

theorem attributed_append (heard : List UInt32) (es es' : List TuneEvent) :
    Attributed heard (es ++ es') ↔
      Attributed heard es ∧ Attributed (unreported heard es) es' := by
  induction es generalizing heard with
  | nil => exact (and_iff_right trivial).symm
  | cons e es ih =>
      cases e with
      | heard hz => exact ih (hz :: heard)
      | reported hz frames =>
          exact (and_congr_right fun _ ↦ ih []).trans and_assoc.symm

theorem unreported_append (heard : List UInt32) (es es' : List TuneEvent) :
    unreported heard (es ++ es') = unreported (unreported heard es) es' := by
  induction es generalizing heard with
  | nil => rfl
  | cons e es ih => cases e <;> exact ih _

/-- Packets alone are attributed later. -/
theorem attributed_heard (heard : List UInt32) (hz : UInt32) (n : ℕ) :
    Attributed heard (List.replicate n (.heard hz)) ∧
      unreported heard (List.replicate n (.heard hz)) = List.replicate n hz ++ heard := by
  induction n generalizing heard with
  | zero => exact ⟨trivial, rfl⟩
  | succ n ih =>
      refine ⟨(ih (hz :: heard)).1, ((ih (hz :: heard)).2).trans ?_⟩
      rw [List.replicate_succ', List.append_assoc]
      rfl

theorem tuneEvent?_of_unreported {p : RadioWorker × Effect} (h : p.2.isResult = false) :
    tuneEvent? p = p.2.read?.map fun _ ↦ .heard p.1.chipFreqHz := by
  obtain ⟨w, e⟩ := p
  cases e <;> first | rfl | cases h

theorem tuneEvents_eq_nil {log : List (RadioWorker × Effect)}
    (h : ∀ p ∈ log, p.2.tallies = false) : tuneEvents log = [] :=
  List.filterMap_eq_nil_iff.mpr fun p hp ↦ by
    rw [tuneEvent?_of_unreported (Effect.isResult_of_tallies (h p hp)),
      Effect.read?_of_tallies (h p hp), Option.map_none]

theorem afterScan_heard (io : PollInput) (w : RadioWorker) :
    ∃ n, tuneEvents ((afterScan io).run w).log = List.replicate n (.heard w.chipFreqHz) := by
  refine ⟨_, List.eq_replicate_of_mem fun e he ↦ ?_⟩
  obtain ⟨p, hp, hevent⟩ := List.mem_filterMap.mp he
  obtain ⟨hkeeps, htraffic⟩ := (afterScan_keeps io w).2 p hp
  have hchip : p.1.chipFreqHz = w.chipFreqHz := (congrArg Settings.chipFreqHz hkeeps :)
  rw [tuneEvent?_of_unreported (Effect.isResult_of_traffic htraffic),
    Option.map_eq_some_iff] at hevent
  obtain ⟨-, -, rfl⟩ := hevent
  rw [hchip]

/-- A poll reports the channel that it leaves, and hears the rest on the frequency
that it leaves the chip on. -/
theorem poll_tuneEvents (io : PollInput) (w : RadioWorker) :
    ∃ n, tuneEvents ((pollOnce io).run w).log =
      (if leaves w io then [.reported (channelHz w.scan w.scanIdx) w.scanFrames] else []) ++
        List.replicate n (.heard ((pollOnce io).run w).state.chipFreqHz) := by
  obtain ⟨w₁, log, hguard, hrun⟩ := pollOnce_run io w
  have hsilent := tuneEvents_eq_nil hguard.log
  have hchip : ∀ w : RadioWorker, ((afterScan io).run w).state.chipFreqHz = w.chipFreqHz :=
    fun w ↦ (congrArg Settings.chipFreqHz (afterScan_keeps io w).1 :)
  rw [hrun]
  by_cases hcut : pollLevel w io ≥ 2
  · have hstay : leaves w io = false := by simp [leaves, ticks, not_lt.mpr hcut]
    refine ⟨0, ?_⟩
    rw [if_pos hcut, hstay, hsilent]
    rfl
  · rw [if_neg hcut]
    cases leaves w io with
    | false =>
        obtain ⟨n, hheard⟩ := afterScan_heard io w₁
        refine ⟨n, ?_⟩
        rw [if_neg Bool.false_ne_true, if_neg Bool.false_ne_true, Outcome.prepend_log,
          tuneEvents_append, hsilent, hheard, Outcome.prepend_state, hchip]
    | true =>
        let w₂ := ((moveOn io.nowMs io.scanFreqSt).run w₁).state
        obtain ⟨n, hheard⟩ := afterScan_heard io w₂
        have hmove : tuneEvents ((moveOn io.nowMs io.scanFreqSt).run w₁).log = [] :=
          tuneEvents_eq_nil fun q hq ↦
            Effect.tallies_of_setup ((moveOn_traffic io.nowMs io.scanFreqSt w₁).2 q hq)
        have hreport : tuneEvents ((w₁, w.report) ::
            ((moveOn io.nowMs io.scanFreqSt).run w₁).log) =
            [.reported (channelHz w.scan w.scanIdx) w.scanFrames] :=
          congrArg (TuneEvent.reported (channelHz w.scan w.scanIdx) w.scanFrames :: ·) hmove
        refine ⟨n, ?_⟩
        rw [if_pos rfl, if_pos rfl, Outcome.prepend_log, tuneEvents_append, tuneEvents_append,
          hsilent, hreport, hheard, Outcome.prepend_state, hchip]
        rfl

/-! ## The frequency of the chip -/

/-- The frequency of the chip behind the guard of a poll, while a scan is active. A
recovery starts the chip on 915 MHz and tunes it to the stored frequency. -/
def guardHz (w : RadioWorker) (io : PollInput) : UInt32 :=
  if revives w io then
    if io.thermal.init.ok ∧ w.cfg.frequencyHz > 0 ∧ io.thermal.config.freqSt = errNone then
      w.cfg.frequencyHz
    else
      io.thermal.init.tuned w.chipFreqHz
  else
    w.chipFreqHz

theorem revives_run {w : RadioWorker} {io : PollInput} (h : revives w io = true) :
    ∃ s : Settings, s.noSensor = w.toSettings.noSensor ∧ s.thermalPoweredDown = true ∧
      ∀ s' ws, Does (recover w.thermalLevel io.thermal) { s with thermalLevel := 0 } () s' ws →
        ticked w io = s' := by
  simp only [revives, Bool.and_eq_true, beq_iff_eq, bne_iff_ne] at h
  obtain ⟨⟨hlevel, hnew⟩, hdown⟩ := h
  obtain ⟨w', l, hw', -, hrun⟩ := thermalTick_run io.nowMs io.thermal w
  have hnext : nextLevel w.toSettings io.nowMs io.thermal.reading = 0 := hlevel
  have hsame : w'.toSettings.noSensor = w.toSettings.noSensor :=
    congrArg RadioWorker.toSettings hw'
  refine ⟨w'.toSettings, hsame, (congrArg Settings.thermalPoweredDown hsame :).trans hdown,
    fun s' ws hdoes ↦ ?_⟩
  rw [hnext, if_neg (Ne.symm hnew)] at hrun
  rw [ticked, hrun]
  exact (enterLevel_recover w.thermalLevel hdoes w' rfl).2.1

theorem ticked_chip {w : RadioWorker} (hactive : w.scanActive = true) (io : PollInput) :
    (ticked w io).chipFreqHz = guardHz w io := by
  rw [guardHz]
  cases hrev : revives w io with
  | false => exact (ticked_spec w io).chip hrev
  | true =>
      obtain ⟨s, hs, hdown, hticked⟩ := revives_run hrev
      have hchip : s.chipFreqHz = w.chipFreqHz := (congrArg Settings.chipFreqHz hs :)
      have hcfg : s.cfg = w.cfg := (congrArg Settings.cfg hs :)
      have hactive' : s.scanActive = true := (congrArg Settings.scanActive hs :).trans hactive
      rw [if_pos rfl]
      by_cases hio : io.thermal.init.ok
      case neg =>
        obtain ⟨ws, hdoes, -⟩ := recover_failed (s := { s with thermalLevel := 0 })
          w.thermalLevel hdown hio
        rw [hticked _ _ hdoes, if_neg fun h ↦ hio h.1, ← hchip]
        rfl
      obtain ⟨v, s', ws, hcases, hconfig⟩ := applyConfig_cases s.cfg io.thermal.config
        { { s with thermalLevel := 0 }.started s.powerGpio with thermalPoweredDown := false }
      rw [hticked _ _ (recover_started (s := { s with thermalLevel := 0 }) w.thermalLevel
        hdown hio hconfig), ← hcfg]
      have hfresh : io.thermal.init.tuned w.chipFreqHz = 915000000 := if_pos ⟨hio.1, hio.2.1⟩
      rw [hfresh]
      cases hcases with
      | refused h => cases h
      | unchanged _ h => exact absurd (hactive'.symm.trans (configUnchanged_iff.mp h).1) (by decide)
      | failed _ _ hfreq hst => rw [if_neg fun h ↦ hst h.2.2]; rfl
      | applied _ _ hst =>
          have hif : (io.thermal.init.ok ∧ s.cfg.frequencyHz > 0 ∧
              io.thermal.config.freqSt = errNone) ↔ s.cfg.frequencyHz > 0 :=
            ⟨fun h ↦ h.2.1, fun h ↦ ⟨hio, h, hst h⟩⟩
          simp only [hif]
          rw [← clampConfig_frequencyHz 0 s.cfg]
          rfl

/-! ## One call -/

/-- The frequency that a poll retunes to. -/
def retune? (w : RadioWorker) (io : PollInput) : Option UInt32 :=
  if leaves w io then
    if w.toSettings.onLast then
      if w.preScanFreqHz > 0 then some w.preScanFreqHz else none
    else
      some (channelHz w.scan (w.scanIdx + 1))
  else
    none

/-- The chip takes the retune of a call, or is on the frequency already; without a retune the
thermal guard leaves the chip where it is stored to be. -/
def Retunes (w : RadioWorker) : Call → Prop
  | .startScan p _ freqSt => freqSt = errNone ∨ w.chipFreqHz = p.startHz
  | .pollOnce io =>
    match retune? w io with
    | some hz => io.scanFreqSt = errNone ∨ guardHz w io = hz
    | none => guardHz w io = w.cfg.frequencyHz
  | _ => True

theorem retunes_stay {w : RadioWorker} {io : PollInput} (h : retune? w io = none) :
    Retunes w (.pollOnce io) ↔ guardHz w io = w.cfg.frequencyHz := by
  rw [Retunes, h]

theorem retunes_move {w : RadioWorker} {io : PollInput} {hz : UInt32}
    (h : retune? w io = some hz) :
    Retunes w (.pollOnce io) ↔ io.scanFreqSt = errNone ∨ guardHz w io = hz := by
  rw [Retunes, h]

instance (w : RadioWorker) : (c : Call) → Decidable (Retunes w c)
  | .applyConfig _ _ | .enqueueTx _ => .isTrue trivial
  | .startScan p _ freqSt =>
    inferInstanceAs (Decidable (freqSt = errNone ∨ w.chipFreqHz = p.startHz))
  | .pollOnce io =>
    match h : retune? w io with
    | some _ => decidable_of_iff _ (retunes_move h).symm
    | none => decidable_of_iff _ (retunes_stay h).symm

def InSweep (w : RadioWorker) : Call → Prop
  | .enqueueTx _ => True
  | .pollOnce _ => w.scanActive = true
  | _ => False

instance (w : RadioWorker) : (c : Call) → Decidable (InSweep w c)
  | .applyConfig _ _ | .startScan _ _ _ => .isFalse id
  | .enqueueTx _ => .isTrue trivial
  | .pollOnce _ => inferInstanceAs (Decidable (w.scanActive = true))

theorem tunedTo_onAir (s : Settings) (hz : UInt32) (st : Int16) :
    OnAir (s.tunedTo hz st) ↔ st = errNone ∨ s.chipFreqHz = hz := by
  by_cases hst : st = errNone <;> simp [OnAir, Settings.tunedTo, hst, eq_comm]

/-- A sweep is on the frequency of its channel. -/
structure Tuned (s : Settings) : Prop where
  ok : s.radioOk = true
  channel : s.scanActive = true → s.cfg.frequencyHz = channelHz s.scan s.scanIdx
  onAir : OnAir s

theorem startScan_onAir_iff {w : RadioWorker} (hok : w.radioOk = true) {p : ScanParams}
    (hp : p.startHz > 0) (now : UInt32) (freqSt : Int16) :
    (OnAir (workerStep w (.startScan p now freqSt)).1.toSettings ↔
      Retunes w (.startScan p now freqSt)) ∧
    (Retunes w (.startScan p now freqSt) →
      Tuned (workerStep w (.startScan p now freqSt)).1.toSettings) := by
  rw [startScan_settings]
  have hback : (w.radioOk && decide (p.startHz > 0)) = true := by simp [hok, hp]
  have hfirst : p.startHz = channelHz p 0 := by simp [channelHz]
  unfold Settings.scanning
  dsimp only
  rw [if_pos hback]
  have honAir := tunedTo_onAir { w.toSettings.stored p now with
    preScanFreqHz := if !w.scanActive && w.cfg.frequencyHz > 0 then w.cfg.frequencyHz
      else w.preScanFreqHz } p.startHz freqSt
  exact ⟨honAir, fun h ↦ ⟨hok, fun _ ↦ hfirst, honAir.mpr h⟩⟩

theorem Tuned.stays {w : RadioWorker} (h : Tuned w.toSettings) (io : PollInput)
    (hactive : w.scanActive = true) :
    (OnAir (ticked w io) ↔ guardHz w io = w.cfg.frequencyHz) ∧
      (OnAir (ticked w io) → Tuned (ticked w io)) := by
  have hticked := ticked_spec w io
  have hscan : (ticked w io).scan = w.scan := (congrArg (·.1) hticked.sweep :)
  have hidx : (ticked w io).scanIdx = w.scanIdx := (congrArg (·.2.2.1) hticked.sweep :)
  refine ⟨?_, fun hon ↦ ⟨hticked.ok h.ok, fun _ ↦ ?_, hon⟩⟩
  · rw [OnAir, hticked.freq, ticked_chip hactive, eq_comm]
  · rw [hticked.freq, hscan, hidx]
    exact h.channel hactive

theorem Tuned.moves {w : RadioWorker} (h : Tuned w.toSettings) (io : PollInput)
    (hleaves : leaves w io = true) :
    (OnAir ((ticked w io).leaveChannel io.nowMs io.scanFreqSt) ↔ Retunes w (.pollOnce io)) ∧
      (OnAir ((ticked w io).leaveChannel io.nowMs io.scanFreqSt) →
        Tuned ((ticked w io).leaveChannel io.nowMs io.scanFreqSt)) := by
  have hactive : w.scanActive = true := by
    simp only [leaves, ticks, Bool.and_eq_true] at hleaves
    exact hleaves.1.1.1
  have hticked := ticked_spec w io
  have hchip := ticked_chip hactive io
  have hok := hticked.ok h.ok
  have hfreq := hticked.freq
  have hsweep := hticked.sweep
  generalize ticked w io = s at *
  have hscan : s.scan = w.scan := (congrArg (·.1) hsweep :)
  have hhome : s.preScanFreqHz = w.preScanFreqHz := (congrArg (·.2.1) hsweep :)
  have hidx : s.scanIdx = w.scanIdx := (congrArg (·.2.2.1) hsweep :)
  have hlast : s.onLast = w.toSettings.onLast := by rw [Settings.onLast, hscan, hidx]; rfl
  have hretune : retune? w io = if s.onLast then
      if s.preScanFreqHz > 0 then some s.preScanFreqHz else none
      else some (channelHz s.scan (s.scanIdx + 1)) := by
    rw [retune?, hleaves, if_pos rfl, hlast, hhome, hscan, hidx]
  rw [Settings.leaveChannel, Retunes, hretune, ← hchip, ← hfreq]
  cases s.onLast with
  | false =>
      simp only [Bool.false_eq_true, ↓reduceIte]
      have honAir := tunedTo_onAir { s with scanIdx := s.scanIdx + 1 }
        (channelHz s.scan (s.scanIdx + 1)) io.scanFreqSt
      exact ⟨honAir, fun hon ↦ ⟨hok, fun _ ↦ rfl, hon⟩⟩
  | true =>
      simp only [↓reduceIte, Settings.homeward]
      by_cases hpre : s.preScanFreqHz > 0
      · rw [if_pos (by simp [hok, hpre]), if_pos hpre]
        have honAir := tunedTo_onAir { s with scanIdx := s.scanIdx + 1, scanActive := false }
          s.preScanFreqHz io.scanFreqSt
        exact ⟨honAir, fun hon ↦ ⟨hok, fun hscan ↦ absurd hscan Bool.false_ne_true, hon⟩⟩
      · rw [if_neg (by simp [hpre]), if_neg hpre]
        exact ⟨eq_comm, fun hon ↦ ⟨hok, fun hscan ↦ absurd hscan Bool.false_ne_true, hon⟩⟩

theorem workerStep_onAir_iff {w : RadioWorker} (h : Tuned w.toSettings) {c : Call}
    (hc : InSweep w c) :
    (OnAir (workerStep w c).1.toSettings ↔ Retunes w c) ∧
      (OnAir (workerStep w c).1.toSettings → Tuned (workerStep w c).1.toSettings) := by
  cases c with
  | applyConfig | startScan => cases hc
  | enqueueTx frame =>
      rw [enqueueTx_settings]
      exact ⟨iff_of_true h.onAir trivial, fun _ ↦ h⟩
  | pollOnce io =>
      have hstate : (workerStep w (.pollOnce io)).1.toSettings = _ := (poll_scan io w).1
      rw [hstate]
      cases hleaves : leaves w io with
      | true => exact h.moves io hleaves
      | false =>
          have hno : retune? w io = none := by rw [retune?, hleaves, if_neg Bool.false_ne_true]
          rw [if_neg Bool.false_ne_true, retunes_stay hno]
          exact h.stays io hc

/-! ## A sweep -/

/-- What has been reported is right, and what has not been is of the channel. -/
structure Attributing (w : RadioWorker) (log : List (RadioWorker × Effect)) : Prop where
  tuned : Tuned w.toSettings
  reported : Attributed [] (tuneEvents log)
  heard : w.scanActive = true → ∀ hz ∈ unreported [] (tuneEvents log), hz = w.chipFreqHz

theorem Attributing.poll {w : RadioWorker} {log : List (RadioWorker × Effect)}
    (h : Attributing w log) (io : PollInput) (hactive : w.scanActive = true)
    (hon : OnAir (workerStep w (.pollOnce io)).1.toSettings) :
    Attributing (workerStep w (.pollOnce io)).1 (log ++ (workerStep w (.pollOnce io)).2) := by
  have htuned := (workerStep_onAir_iff (c := .pollOnce io) h.tuned hactive).2 hon
  obtain ⟨n, hevents⟩ := poll_tuneEvents io w
  obtain ⟨hstate, -⟩ := poll_scan io w
  change Attributing ((pollOnce io).run w).state (log ++ ((pollOnce io).run w).log)
  change OnAir ((pollOnce io).run w).state.toSettings at hon
  change Tuned ((pollOnce io).run w).state.toSettings at htuned
  generalize ((pollOnce io).run w).state = w' at *
  have hchannel : channelHz w.scan w.scanIdx = w.chipFreqHz :=
    (h.tuned.channel hactive).symm.trans h.tuned.onAir
  cases hleaves : leaves w io with
  | false =>
      rw [hleaves, if_neg Bool.false_ne_true] at hevents hstate
      have hchip : w'.chipFreqHz = w.chipFreqHz := by
        rw [OnAir, hstate, (ticked_spec w io).freq] at hon
        rw [hstate, ← hon]
        exact h.tuned.onAir
      obtain ⟨hreported, hheard⟩ := attributed_heard (unreported [] (tuneEvents log))
        w'.chipFreqHz n
      refine ⟨htuned, ?_, fun _ ↦ ?_⟩
      · rw [tuneEvents_append, hevents, List.nil_append, attributed_append]
        exact ⟨h.reported, hreported⟩
      · rw [tuneEvents_append, hevents, List.nil_append, unreported_append, hheard]
        intro hz hmem
        rcases List.mem_append.mp hmem with hmem | hmem
        · exact (List.mem_replicate.mp hmem).2
        · exact (h.heard hactive hz hmem).trans hchip.symm
  | true =>
      rw [hleaves, if_pos rfl] at hevents
      obtain ⟨hreported, hheard⟩ := attributed_heard [] w'.chipFreqHz n
      refine ⟨htuned, ?_, fun _ ↦ ?_⟩
      · rw [tuneEvents_append, hevents, List.singleton_append, attributed_append]
        refine ⟨h.reported, fun _ hz hmem ↦ ?_, hreported⟩
        exact (h.heard hactive hz hmem).trans hchannel.symm
      · rw [tuneEvents_append, hevents, List.singleton_append, unreported_append]
        intro hz hmem
        have hmem' : hz ∈ unreported [] (List.replicate n (.heard w'.chipFreqHz)) := hmem
        rw [hheard, List.append_nil] at hmem'
        exact (List.mem_replicate.mp hmem').2

theorem Attributing.step {w : RadioWorker} {log : List (RadioWorker × Effect)} {c : Call}
    (h : Attributing w log) (hc : InSweep w c) (hon : OnAir (workerStep w c).1.toSettings) :
    Attributing (workerStep w c).1 (log ++ (workerStep w c).2) := by
  cases c with
  | applyConfig | startScan => cases hc
  | pollOnce io => exact h.poll io hc hon
  | enqueueTx frame =>
      have hsettings := enqueueTx_settings frame w
      have hsilent : tuneEvents (workerStep w (.enqueueTx frame)).2 = [] :=
        tuneEvents_eq_nil fun q hq ↦ (((Steady.enqueueTx frame).discard w).2 q hq).2
      have hactive := (congrArg Settings.scanActive hsettings :)
      have hchip := (congrArg Settings.chipFreqHz hsettings :)
      refine ⟨hsettings ▸ h.tuned, ?_, fun ha hz hmem ↦ ?_⟩
      · rw [tuneEvents_append, hsilent, List.append_nil]
        exact h.reported
      · rw [tuneEvents_append, hsilent, List.append_nil] at hmem
        exact (h.heard (hactive.symm.trans ha) hz hmem).trans hchip.symm

/-- Through a sweep the stored frequency is that of the chip, and every report of
frames names the frequency they were heard on, exactly if the chip takes every retune
that it needs. -/
theorem reports_attributed_iff (w : RadioWorker) (hok : w.radioOk = true) (p : ScanParams)
    (hp : p.startHz > 0) (now : UInt32) (freqSt : Int16) (calls : List Call)
    (hcalls : Along workerStep InSweep (workerStep w (.startScan p now freqSt)).1 calls) :
    let sweep := .startScan p now freqSt :: calls
    Along workerStep (fun w c ↦ OnAir (workerStep w c).1.toSettings) w sweep ∧
        Attributed [] (tuneEvents (run workerStep w sweep).2) ↔
      Along workerStep Retunes w sweep := by
  obtain ⟨hiff, htuned⟩ := startScan_onAir_iff hok hp now freqSt
  have hrest : Tuned (workerStep w (.startScan p now freqSt)).1.toSettings →
      (Along workerStep (fun w c ↦ OnAir (workerStep w c).1.toSettings)
        (workerStep w (.startScan p now freqSt)).1 calls ↔
      Along workerStep Retunes (workerStep w (.startScan p now freqSt)).1 calls) := fun ht ↦
    Along.congr_under (I := fun w ↦ Tuned w.toSettings)
      (fun _ _ h hc ↦ (workerStep_onAir_iff h hc).1)
      (fun _ _ h hc hre ↦ (workerStep_onAir_iff h hc).2 ((workerStep_onAir_iff h hc).1.mpr hre))
      ht hcalls
  refine ⟨fun ⟨⟨hon, hons⟩, _⟩ ↦ ⟨hiff.mp hon, (hrest (htuned (hiff.mp hon))).mp hons⟩,
    fun ⟨hre, hres⟩ ↦ ?_⟩
  have hons := (hrest (htuned hre)).mpr hres
  have hsilent : tuneEvents (workerStep w (.startScan p now freqSt)).2 = [] :=
    tuneEvents_eq_nil fun q hq ↦
      Effect.tallies_of_setup ((startScan_traffic p now freqSt w).2 q hq)
  refine ⟨⟨hiff.mpr hre, hons⟩, ?_⟩
  have hstart : Attributing (workerStep w (.startScan p now freqSt)).1
      (workerStep w (.startScan p now freqSt)).2 := by
    refine ⟨htuned hre, ?_, fun _ ↦ ?_⟩ <;> rw [hsilent]
    · trivial
    · nofun
  exact (Along.history (c := fun w c ↦ InSweep w c ∧ OnAir (workerStep w c).1.toSettings)
    (fun _ _ _ h hc ↦ h.step hc.1 hc.2) hstart (Along_and.mpr ⟨hcalls, hons⟩)).reported

/-- A sweep over one channel whose retunes go through. -/
theorem reports_attributed_once :
    let pkt := (⟨kMagic, 7, 0, 1, 400, 0⟩ : Header).packet
    let sweep : List Call := [.startScan { count := 1 } 1000 0,
      .pollOnce { pollAt 1100 0 with rx := [.reading pkt] }, .pollOnce (pollAt 4000 0)]
    Along workerStep (fun w c ↦ OnAir (workerStep w c).1.toSettings) booted.state sweep ∧
      Attributed [] (tuneEvents (run workerStep booted.state sweep).2) := by
  intro pkt sweep
  have hcalls : Along workerStep InSweep
      (workerStep booted.state (.startScan { count := 1 } 1000 0)).1
      [.pollOnce { pollAt 1100 0 with rx := [.reading pkt] }, .pollOnce (pollAt 4000 0)] :=
    ⟨by decide +kernel, by decide +kernel, trivial⟩
  have htakes : Along workerStep Retunes booted.state sweep :=
    ⟨by decide +kernel, by decide +kernel, by decide +kernel, trivial⟩
  exact (reports_attributed_iff booted.state (by decide) { count := 1 } (by decide) 1000 0 _
    hcalls).mpr htakes

/-- The chip refuses the retune to 902 MHz, and what it hears on 915 MHz is reported
as heard on 902 MHz. -/
theorem reports_misattributed :
    let pkt := (⟨kMagic, 7, 0, 1, 400, 0⟩ : Header).packet
    let w := (workerStep booted.state (.startScan { count := 2 } 1000 1)).1
    let polls : List Call := [.pollOnce { pollAt 1100 0 with rx := [.reading pkt] },
      .pollOnce (pollAt 4000 0)]
    w.cfg.frequencyHz = 902000000 ∧ w.chipFreqHz = 915000000 ∧ w.cfg.role ≠ 1 ∧
      tuneEvents (run workerStep w polls).2 = [.heard 915000000, .reported 902000000 1] ∧
      ¬Attributed [] (tuneEvents (run workerStep w polls).2) := by
  intro pkt w polls
  have hevents : tuneEvents (run workerStep w polls).2 =
      [.heard 915000000, .reported 902000000 1] := by decide +kernel
  have hwrong : ¬Attributed [] [.heard 915000000, .reported 902000000 1] := fun h ↦
    absurd (h.1 (by decide) 915000000 (List.mem_singleton_self _)) (by decide)
  refine ⟨by decide +kernel, by decide +kernel, by decide +kernel, hevents, ?_⟩
  rwa [hevents]

end RadioService
