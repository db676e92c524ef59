import RadioService.ScanRun

/-!
# How long a scan dwells

A channel is left when the clock has passed the end of its dwell.  Both are
counted modulo 2^32 and compared as a signed difference, so that the end of a
dwell of more than 2^31 ms counts as past.
-/

namespace RadioService

open Traced Machine

/-- The worker, the clock that has not wrapped, and when the worker turned to
its channel. -/
structure TimedWorker where
  worker : RadioWorker
  nowMs : ℕ
  enteredMs : ℕ

structure TimedCall where
  gapMs : ℕ
  call : Call

def Call.atTime (t : ℕ) : Call → Call
  | .startScan p _ freqSt => .startScan p (UInt32.ofNat t) freqSt
  | .pollOnce io => .pollOnce { io with nowMs := UInt32.ofNat t }
  | c => c

def Call.startsScan : Call → Bool
  | .startScan _ _ _ => true
  | _ => false

/-- A call at its time. A channel is entered by a new scan and behind a report. -/
def timedStep : Step TimedWorker TimedCall (RadioWorker × Effect) := fun s i ↦
  let t := s.nowMs + i.gapMs
  let (w, log) := workerStep s.worker (i.call.atTime t)
  (⟨w, t, if i.call.startsScan = true ∨ results log ≠ [] then t else s.enteredMs⟩, log)

/-- No channel is reported without a consensus frame before its dwell is over. -/
def DwellKept (s : TimedWorker) (i : TimedCall) : Prop :=
  ∀ freqHz frames best, .onScanResult freqHz frames 0 best ∈ results (timedStep s i).2 →
    s.enteredMs + s.worker.scan.dwellMs.toNat ≤ s.nowMs + i.gapMs

/-- A poll that finds a scan without a consensus frame finds at most 2^31 ms of
its dwell to go. -/
def DwellNear (s : TimedWorker) (i : TimedCall) : Prop :=
  let t := s.nowMs + i.gapMs
  ∀ io, i.call.atTime t = .pollOnce io → ticks s.worker io = true → s.worker.scanConsensus = 0 →
    s.worker.scan.dwellMs.toNat ≤ (t - s.enteredMs) + 2 ^ 31

/-! ## The comparison -/

theorem before_iff (now deadline : UInt32) :
    before now deadline = true ↔ 2 ^ 31 ≤ (now - deadline).toNat := by
  have hsign : (now - deadline).toInt32.toInt = (now - deadline).toBitVec.toInt := rfl
  rw [before, decide_eq_true_iff, Int32.lt_iff_toInt_lt, hsign]
  change (now - deadline).toBitVec.toInt < 0 ↔ 2 ^ 31 ≤ (now - deadline).toBitVec.toNat
  rw [BitVec.toInt_neg_iff]
  omega

/-- The deadline counts as past before its time exactly if it is more than 2^31
ms away. -/
theorem dwell_over_iff {entered t : ℕ} (h : entered ≤ t) (dwell : UInt32) :
    (before (UInt32.ofNat t) (UInt32.ofNat entered + dwell) = false →
      entered + dwell.toNat ≤ t) ↔ dwell.toNat ≤ (t - entered) + 2 ^ 31 := by
  have hdiff : (UInt32.ofNat t - (UInt32.ofNat entered + dwell)).toNat =
      ((t - entered) + (2 ^ 32 - dwell.toNat)) % 2 ^ 32 := by
    have hlt := dwell.toNat_lt
    rw [UInt32.toNat_sub, UInt32.toNat_add, UInt32.toNat_ofNat', UInt32.toNat_ofNat']
    omega
  have hlt := dwell.toNat_lt
  rw [← Bool.not_eq_true, before_iff, hdiff]
  omega

/-! ## Runs -/

/-- The deadline of a scan is the end of its dwell. -/
structure DwellSet (s : TimedWorker) : Prop where
  le : s.enteredMs ≤ s.nowMs
  set : s.worker.scanActive = true →
    s.worker.scanDwellUntil = UInt32.ofNat s.enteredMs + s.worker.scan.dwellMs

theorem Settings.scanning_deadline (s : Settings) (p : ScanParams) (now : UInt32)
    (freqSt : Int16) :
    (s.scanning p now freqSt).scanDwellUntil = now + p.dwellMs ∧
      (s.scanning p now freqSt).scan = p := by
  unfold Settings.scanning
  dsimp only
  split <;> exact ⟨rfl, rfl⟩

theorem Settings.leaveChannel_deadline (s : Settings) (now : UInt32) (freqSt : Int16) :
    (s.leaveChannel now freqSt).scanActive = true →
      (s.leaveChannel now freqSt).scanDwellUntil =
        now + (s.leaveChannel now freqSt).scan.dwellMs := by
  unfold Settings.leaveChannel
  dsimp only
  split
  · have hover : ({ s with scanIdx := s.scanIdx + 1 }.homeward freqSt).scanActive = false := by
      unfold Settings.homeward
      dsimp only
      split <;> rfl
    exact fun h ↦ absurd (hover.symm.trans h) (by decide)
  · exact fun _ ↦ rfl

theorem timedStep_state {c : Call} (hc : c.isPoll = false) (s : TimedWorker) (gap : ℕ) :
    (timedStep s ⟨gap, c⟩).1 =
      ⟨(workerStep s.worker (c.atTime (s.nowMs + gap))).1, s.nowMs + gap,
        if c.startsScan = true then s.nowMs + gap else s.enteredMs⟩ := by
  have hc' : (c.atTime (s.nowMs + gap)).isPoll = false := by
    cases c <;> first | rfl | cases hc
  simp [timedStep, workerStep_results hc']

theorem DwellSet.poll {s : TimedWorker} (hs : DwellSet s) (gap : ℕ) (io : PollInput) :
    DwellSet (timedStep s ⟨gap, .pollOnce io⟩).1 := by
  let t := s.nowMs + gap
  let io' : PollInput := { io with nowMs := UInt32.ofNat t }
  obtain ⟨hstate, hresults⟩ := poll_scan io' s.worker
  have hticked := ticked_spec s.worker io'
  generalize ticked s.worker io' = s₁ at hstate hticked
  have hentered : (timedStep s ⟨gap, .pollOnce io⟩).1 =
      ⟨((pollOnce io').run s.worker).state, t, if leaves s.worker io' then t else s.enteredMs⟩ := by
    have hleft : results (workerStep s.worker (.pollOnce io')).2 ≠ [] ↔
        leaves s.worker io' = true := by
      change results ((pollOnce io').run s.worker).log ≠ [] ↔ _
      rw [hresults]
      cases leaves s.worker io' <;> simp
    exact congrArg (TimedWorker.mk ((pollOnce io').run s.worker).state t)
      (if_congr ((or_iff_right Bool.false_ne_true).trans hleft) rfl rfl)
  rw [hentered]
  cases hleaves : leaves s.worker io' with
  | true =>
      rw [hleaves, if_pos rfl] at hstate
      refine ⟨le_refl t, fun hactive ↦ ?_⟩
      change ((pollOnce io').run s.worker).state.toSettings.scanActive = true at hactive
      change ((pollOnce io').run s.worker).state.toSettings.scanDwellUntil =
        UInt32.ofNat t + ((pollOnce io').run s.worker).state.toSettings.scan.dwellMs
      rw [hstate] at hactive ⊢
      exact s₁.leaveChannel_deadline _ _ hactive
  | false =>
      rw [hleaves, if_neg Bool.false_ne_true] at hstate
      refine ⟨le_trans hs.le (Nat.le_add_right _ _), fun hactive ↦ ?_⟩
      have hactive' : s₁.scanActive = true := by
        rw [← hstate]
        exact hactive
      have hscan : s₁.scan = s.worker.scan := (congrArg (·.1) hticked.sweep :)
      have huntil : s₁.scanDwellUntil = s.worker.scanDwellUntil :=
        (congrArg (·.2.2.2) hticked.sweep :)
      rw [hticked.active, Bool.and_eq_true] at hactive'
      change ((pollOnce io').run s.worker).state.toSettings.scanDwellUntil =
        UInt32.ofNat s.enteredMs + ((pollOnce io').run s.worker).state.toSettings.scan.dwellMs
      rw [hstate, hscan, huntil]
      exact hs.set hactive'.1

theorem DwellSet.step {s : TimedWorker} (hs : DwellSet s) (i : TimedCall) :
    DwellSet (timedStep s i).1 := by
  obtain ⟨gap, c⟩ := i
  have hle : s.enteredMs ≤ s.nowMs + gap := le_trans hs.le (Nat.le_add_right _ _)
  have hstay : ∀ s' : Settings, s' = s.worker.toSettings → s'.scanActive = true →
      s'.scanDwellUntil = UInt32.ofNat s.enteredMs + s'.scan.dwellMs := by
    rintro s' rfl hactive
    exact hs.set hactive
  cases c with
  | applyConfig cfg io =>
      rw [timedStep_state rfl]
      refine ⟨hle, fun hactive ↦ ?_⟩
      rcases applyConfig_scan cfg io s.worker with h | h
      · exact hstay _ h hactive
      · exact absurd (h.symm.trans hactive) (by decide)
  | startScan p now freqSt =>
      rw [timedStep_state rfl]
      refine ⟨le_refl _, fun _ ↦ ?_⟩
      obtain ⟨huntil, hscan⟩ :=
        s.worker.toSettings.scanning_deadline p (UInt32.ofNat (s.nowMs + gap)) freqSt
      have hstate := startScan_settings p (UInt32.ofNat (s.nowMs + gap)) freqSt s.worker
      rw [← hstate] at huntil hscan
      exact huntil.trans (congrArg (UInt32.ofNat (s.nowMs + gap) + ·.dwellMs) hscan.symm)
  | enqueueTx frame =>
      rw [timedStep_state rfl]
      exact ⟨hle, hstay _ (enqueueTx_settings frame s.worker)⟩
  | pollOnce io => exact hs.poll gap io

theorem DwellSet.kept_iff {s : TimedWorker} (hs : DwellSet s) (i : TimedCall) :
    DwellKept s i ↔ DwellNear s i := by
  obtain ⟨gap, c⟩ := i
  have hother : (c.atTime (s.nowMs + gap)).isPoll = false →
      (DwellKept s ⟨gap, c⟩ ↔ DwellNear s ⟨gap, c⟩) := by
    intro hc
    refine iff_of_true (fun _ _ _ h ↦ ?_) fun io hio ↦ by rw [hio] at hc; cases hc
    change _ ∈ results (workerStep s.worker (c.atTime (s.nowMs + gap))).2 at h
    rw [workerStep_results hc] at h
    cases h
  cases c with
  | applyConfig | startScan | enqueueTx => exact hother rfl
  | pollOnce io =>
      let t := s.nowMs + gap
      let io' : PollInput := { io with nowMs := UInt32.ofNat t }
      obtain ⟨-, hresults⟩ := poll_scan io' s.worker
      have hkept : DwellKept s ⟨gap, .pollOnce io⟩ ↔ (leaves s.worker io' = true →
          s.worker.scanConsensus = 0 → s.enteredMs + s.worker.scan.dwellMs.toNat ≤ t) := by
        change (∀ _ _ _, _ ∈ results ((pollOnce io').run s.worker).log → _) ↔ _
        rw [hresults]
        cases leaves s.worker io' with
        | false => simp
        | true =>
            rw [if_pos rfl]
            refine ⟨fun h _ hcons ↦ ?_, fun h _ _ _ hmem ↦ ?_⟩
            · refine h (channelHz s.worker.scan s.worker.scanIdx) s.worker.scanFrames
                s.worker.scanBestRssi (List.mem_singleton.mpr ?_)
              rw [RadioWorker.report, hcons]
            · rw [List.mem_singleton, RadioWorker.report] at hmem
              injection hmem with _ _ hcons
              exact h rfl hcons.symm
      have hnear : DwellNear s ⟨gap, .pollOnce io⟩ ↔ (ticks s.worker io' = true →
          s.worker.scanConsensus = 0 →
            s.worker.scan.dwellMs.toNat ≤ (t - s.enteredMs) + 2 ^ 31) :=
        ⟨fun h ↦ h io' rfl, fun h _ hio ↦ by cases hio; exact h⟩
      rw [hkept, hnear, leaves]
      by_cases hticks : ticks s.worker io' = true
      case neg => simp [hticks]
      have hactive : s.worker.scanActive = true := by
        simp only [ticks, Bool.and_eq_true] at hticks
        exact hticks.1.1
      by_cases hcons : s.worker.scanConsensus = 0
      case neg => simp [hcons]
      rw [← dwell_over_iff (le_trans hs.le (Nat.le_add_right _ gap)), ← hs.set hactive]
      simp [hcons, dwelling, io', t]

/-- No dwell of a run is cut short exactly if no poll comes more than 2^31 ms
before the end of one. -/
theorem dwell_kept_iff (io : InitInput) (bootMs : ℕ) (calls : List TimedCall) :
    let s : TimedWorker := ⟨((init 44 io).run {}).state, bootMs, bootMs⟩
    Along timedStep DwellKept s calls ↔ Along timedStep DwellNear s calls := by
  intro s
  have hboot : s.worker.scanActive = false := (Scanless.rules.init 44 io {} rfl).1
  refine Along.congr (I := DwellSet) (fun s i hs ↦ hs.kept_iff i) (fun s i hs _ ↦ hs.step i)
    ⟨le_refl bootMs, fun h ↦ absurd (hboot.symm.trans h) (by decide)⟩

/-- A `Q` for one channel, whose dwell is more than 2^31 ms. -/
def longDwell : ScanParams :=
  { startHz := 902000000, stepHz := 0, count := 1, dwellMs := 3000000000 }

/-- A channel with a dwell of 3000000000 ms is reported one millisecond after
the scan has entered it. -/
theorem dwell_cut_short :
    let s : TimedWorker := ⟨((init 44 {}).run {}).state, 0, 0⟩
    let scan : TimedCall := ⟨5, .startScan longDwell 0 0⟩
    let poll : TimedCall := ⟨1, .pollOnce (pollAt 0 0)⟩
    let s' := (timedStep s scan).1
    results (timedStep s' poll).2 = [.onScanResult 902000000 0 0 (-128)] ∧
      s'.nowMs + poll.gapMs - s'.enteredMs = 1 ∧ ¬Along timedStep DwellKept s [scan, poll] := by
  have hreport : results (timedStep (timedStep ⟨((init 44 {}).run {}).state, 0, 0⟩
      ⟨5, .startScan longDwell 0 0⟩).1 ⟨1, .pollOnce (pollAt 0 0)⟩).2 =
      [.onScanResult 902000000 0 0 (-128)] := by decide +kernel
  refine ⟨hreport, by decide +kernel, fun h ↦ ?_⟩
  have hshort := h.2.1 902000000 0 (-128) (by rw [hreport]; exact List.mem_singleton_self _)
  revert hshort
  decide +kernel

end RadioService
