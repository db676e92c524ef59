import RadioService.ScanRun

/-!
# The frequency behind a sweep

A scan stores its channels as the configured frequency and puts the old one back
behind its last channel.  A recovery from a cutoff ends a scan as well, and then
the channel stays.
-/

namespace RadioService

open Traced Machine

def AtHome (F : UInt32) (w : RadioWorker) : Prop :=
  w.scanActive = false → w.cfg.frequencyHz = F

/-- A recovery in the middle of a scan finds the scan on `F`. -/
def RecoversHome (F : UInt32) (w : RadioWorker) (c : Call) : Prop :=
  ∀ io, c = .pollOnce io → recovers w io = true → w.scanActive = true → w.cfg.frequencyHz = F

def Call.isConfig : Call → Bool
  | .applyConfig _ _ => true
  | _ => false

/-- Where the worker finds its way back to `F`. -/
structure KnowsHome (F : UInt32) (s : Settings) : Prop where
  ok : s.radioOk = true
  saved : s.scanActive = true → s.preScanFreqHz = F
  home : s.scanActive = false → s.cfg.frequencyHz = F

namespace KnowsHome

variable {F : UInt32} {s : Settings}

/-- The frequency is saved by the first of nested scans only. -/
theorem scanning (h : KnowsHome F s) (hF : F > 0) (p : ScanParams) (now : UInt32)
    (freqSt : Int16) : KnowsHome F (s.scanning p now freqSt) := by
  have hsaved : (if !s.scanActive && s.cfg.frequencyHz > 0 then s.cfg.frequencyHz
      else s.preScanFreqHz) = F := by
    cases hactive : s.scanActive with
    | true => simpa using h.saved hactive
    | false => simp [h.home hactive, hF]
  unfold Settings.scanning
  dsimp only
  split <;> exact ⟨h.ok, fun _ ↦ hsaved, nofun⟩

theorem leaveChannel (h : KnowsHome F s) (hF : F > 0) (hactive : s.scanActive = true)
    (now : UInt32) (freqSt : Int16) : KnowsHome F (s.leaveChannel now freqSt) := by
  have hsaved := h.saved hactive
  unfold Settings.leaveChannel
  dsimp only
  split
  · have hback : (s.radioOk && decide (s.preScanFreqHz > 0)) = true := by
      simp [h.ok, hsaved, hF]
    unfold Settings.homeward
    dsimp only
    rw [if_pos hback]
    exact ⟨h.ok, nofun, fun _ ↦ hsaved⟩
  · exact ⟨h.ok, fun _ ↦ hsaved, fun hidle ↦ absurd (hactive.symm.trans hidle) (by decide)⟩

theorem ticked {w : RadioWorker} {io : PollInput} (h : KnowsHome F w.toSettings)
    (hs : Ticked w io s) (hend : recovers w io = true → w.scanActive = true →
      w.cfg.frequencyHz = F) : KnowsHome F s := by
  refine ⟨hs.ok h.ok, fun hactive ↦ ?_, fun hidle ↦ hs.freq.trans ?_⟩
  · rw [hs.active, Bool.and_eq_true] at hactive
    exact (congrArg (·.2.1) hs.sweep :).trans (h.saved hactive.1)
  · cases hactive : w.scanActive with
    | false => exact h.home hactive
    | true =>
        rw [hs.active, hactive, Bool.true_and, Bool.not_eq_false'] at hidle
        exact hend hidle hactive

end KnowsHome

theorem recoversHome_of_ne {F : UInt32} {w : RadioWorker} {c : Call}
    (h : ∀ io, c ≠ .pollOnce io) : RecoversHome F w c :=
  fun io hio ↦ absurd hio (h io)

/-- A call keeps the worker at home exactly if it does not end a scan abroad. -/
theorem workerStep_home_iff {F : UInt32} (hF : F > 0) {w : RadioWorker}
    (h : KnowsHome F w.toSettings) {c : Call} (hc : c.isConfig = false) :
    (AtHome F (workerStep w c).1 ↔ RecoversHome F w c) ∧
      (RecoversHome F w c → KnowsHome F (workerStep w c).1.toSettings) := by
  cases c with
  | applyConfig cfg io => cases hc
  | startScan p now freqSt =>
      have hstep : KnowsHome F (workerStep w (.startScan p now freqSt)).1.toSettings := by
        rw [startScan_settings]
        exact h.scanning hF p now freqSt
      exact ⟨iff_of_true hstep.home (recoversHome_of_ne (by simp)), fun _ ↦ hstep⟩
  | enqueueTx frame =>
      have hstep : KnowsHome F (workerStep w (.enqueueTx frame)).1.toSettings := by
        rw [enqueueTx_settings]
        exact h
      exact ⟨iff_of_true hstep.home (recoversHome_of_ne (by simp)), fun _ ↦ hstep⟩
  | pollOnce io =>
      obtain ⟨hstate, -⟩ := poll_scan io w
      have hticked := ticked_spec w io
      generalize ticked w io = s at hstate hticked
      have hcond : RecoversHome F w (.pollOnce io) ↔
          (recovers w io = true → w.scanActive = true → w.cfg.frequencyHz = F) :=
        ⟨fun h ↦ h io rfl, fun h _ hio ↦ by cases hio; exact h⟩
      have hknows : (recovers w io = true → w.scanActive = true → w.cfg.frequencyHz = F) →
          KnowsHome F (workerStep w (.pollOnce io)).1.toSettings := by
        intro hend
        change KnowsHome F ((pollOnce io).run w).state.toSettings
        have hs := h.ticked hticked hend
        rw [hstate]
        split
        · rename_i hleaves
          have hactive : s.scanActive = true := by
            simp only [leaves, ticks, Bool.and_eq_true] at hleaves
            rw [hticked.active, hleaves.1.1.1, hleaves.1.1.2]
            rfl
          exact hs.leaveChannel hF hactive _ _
        · exact hs
      rw [hcond]
      refine ⟨⟨fun hhome hrec hactive ↦ ?_, fun hend ↦ (hknows hend).home⟩, hknows⟩
      have hstay : leaves w io = false := by simp [leaves, ticks, hrec]
      rw [hstay, if_neg Bool.false_ne_true] at hstate
      have hidle : s.scanActive = false := by
        rw [hticked.active, hrec, Bool.not_true, Bool.and_false]
      rw [← hticked.freq, ← hstate]
      refine hhome ?_
      change ((pollOnce io).run w).state.toSettings.scanActive = false
      rw [hstate]
      exact hidle

/-- Scans, polls and transmissions give the frequency back exactly if no
recovery from a cutoff ends a scan on another channel. -/
theorem home_kept_iff (w : RadioWorker) (hok : w.radioOk = true) (hidle : w.scanActive = false)
    (htuned : w.cfg.frequencyHz > 0) (calls : List Call)
    (hcalls : ∀ c ∈ calls, c.isConfig = false) :
    Along workerStep (fun w' c ↦ AtHome w.cfg.frequencyHz (workerStep w' c).1) w calls ↔
      Along workerStep (RecoversHome w.cfg.frequencyHz) w calls := by
  refine Along.congr_under (c := fun _ c ↦ c.isConfig = false)
    (I := fun w' ↦ KnowsHome w.cfg.frequencyHz w'.toSettings)
    (fun w' c h hc ↦ (workerStep_home_iff htuned h hc).1)
    (fun w' c h hc ↦ (workerStep_home_iff htuned h hc).2) ?_
    (Along.of_forall (fun c hmem _ ↦ hcalls c hmem) w)
  exact ⟨hok, fun hactive ↦ absurd (hidle.symm.trans hactive) (by decide), fun _ ↦ rfl⟩

/-- A sweep over one channel comes back to 915 MHz. -/
theorem home_kept_once :
    Along workerStep (fun w c ↦ AtHome booted.state.cfg.frequencyHz (workerStep w c).1)
      booted.state [.startScan { count := 1 } 1000 0, .pollOnce (pollAt 3000 0)] := by
  refine (home_kept_iff booted.state (by decide) (by decide) (by decide) _
    (by decide)).mpr ⟨recoversHome_of_ne (by simp), ?_, trivial⟩
  intro io hio hrec
  cases hio
  revert hrec
  decide +kernel

/-- A cutoff in the middle of a sweep, and the recovery: the stored frequency is
the channel. -/
theorem home_lost :
    let w := (run workerStep booted.state [.startScan {} 1000 0, .pollOnce (pollAt 4000 2),
      .pollOnce (pollAt 8000 0)]).1
    booted.state.cfg.frequencyHz = 915000000 ∧ w.scanActive = false ∧
      w.cfg.frequencyHz = 902000000 ∧ ¬AtHome 915000000 w := by
  refine ⟨by decide, by decide +kernel, by decide +kernel, fun h ↦ ?_⟩
  have hhome := h (by decide +kernel)
  revert hhome
  decide +kernel

end RadioService
