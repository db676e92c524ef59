import RadioService.ScanRun
import RadioService.Wire

/-!
# The channels of a sweep

Whatever comes in between, the channels reported since the last sweep was started
are the first ones of its grid, each once and in order.
-/

namespace RadioService

open Burst Traced Machine

/-- The channels of a sweep, in the order in which they are listened to. -/
def ScanParams.grid (p : ScanParams) : List UInt32 :=
  (List.range p.count.toNat).map fun k ↦ channelHz p (UInt8.ofNat k)

theorem ScanParams.length_grid (p : ScanParams) : p.grid.length = p.count.toNat := by
  simp [grid]

/-- One more channel of the grid. -/
theorem ScanParams.prefix_grid {p : ScanParams} {fs : List UInt32} {idx : UInt8}
    (h : fs <+: p.grid) (hidx : fs.length = idx.toNat) (hlt : idx < p.count) :
    fs ++ [channelHz p idx] <+: p.grid := by
  have hlen : fs.length < p.grid.length := by
    rw [p.length_grid, hidx]
    exact hlt
  have hnext : p.grid[fs.length] = channelHz p idx := by
    simp [grid, hidx]
  rw [List.prefix_iff_eq_take] at h ⊢
  rw [List.length_append, List.length_singleton, List.take_succ_eq_append_getElem hlen, ← h, hnext]

/-- Where a scan stands. -/
def Settings.place (s : Settings) : ScanParams × UInt8 × Bool := (s.scan, s.scanIdx, s.scanActive)

theorem Settings.place_scanning (s : Settings) (p : ScanParams) (now : UInt32) (freqSt : Int16) :
    (s.scanning p now freqSt).place = (p, 0, true) := by
  unfold Settings.scanning
  dsimp only
  split <;> rfl

theorem Settings.place_leaveChannel (s : Settings) (now : UInt32) (freqSt : Int16)
    (hactive : s.scanActive = true) :
    (s.leaveChannel now freqSt).place = (s.scan, s.scanIdx + 1, !s.onLast) := by
  unfold Settings.leaveChannel
  dsimp only
  cases s.onLast with
  | true =>
      rw [if_pos rfl]
      unfold Settings.homeward
      dsimp only
      split <;> rfl
  | false => exact congrArg (fun b ↦ (s.scan, s.scanIdx + 1, b)) hactive

/-! ## Following a sweep -/

/-- The last sweep started, and the channels reported since. -/
abbrev Watched := Option ScanParams × List UInt32

def Effect.channel? : Effect → Option UInt32
  | .onScanResult freqHz _ _ _ => some freqHz
  | _ => none

/-- The channels reported are the first ones of the sweep, and a scan under way
goes on behind them. -/
structure InOrder (s : Settings) (m : Watched) : Prop where
  reported : m.2 <+: m.1.elim [] ScanParams.grid
  underWay : s.scanActive = true →
    m.1 = some s.scan ∧ m.2.length = s.scanIdx.toNat ∧ s.scanIdx < s.scan.count

theorem InOrder.congr {s s' : Settings} {m : Watched} (h : InOrder s m)
    (hplace : s'.place = s.place) : InOrder s' m := by
  have hscan : s'.scan = s.scan := congrArg Prod.fst hplace
  have hidx : s'.scanIdx = s.scanIdx := congrArg (fun t ↦ t.2.1) hplace
  have hactive : s'.scanActive = s.scanActive := congrArg (fun t ↦ t.2.2) hplace
  refine ⟨h.reported, fun hon ↦ ?_⟩
  rw [hscan, hidx]
  exact h.underWay (hactive ▸ hon)

theorem InOrder.stopped {s s' : Settings} {m : Watched} (h : InOrder s m)
    (hidle : s'.scanActive = false) : InOrder s' m :=
  ⟨h.reported, fun hon ↦ by rw [hidle] at hon; cases hon⟩

/-- A channel is left. -/
theorem InOrder.leave {s : Settings} {m : Watched} (h : InOrder s m)
    (hactive : s.scanActive = true) (now : UInt32) (freqSt : Int16) :
    InOrder (s.leaveChannel now freqSt) (m.1, m.2 ++ [channelHz s.scan s.scanIdx]) := by
  obtain ⟨hsweep, hlen, hlt⟩ := h.underWay hactive
  have hplace := s.place_leaveChannel now freqSt hactive
  have hscan : (s.leaveChannel now freqSt).scan = s.scan := congrArg Prod.fst hplace
  have hidx : (s.leaveChannel now freqSt).scanIdx = s.scanIdx + 1 :=
    congrArg (fun t ↦ t.2.1) hplace
  have hmore : (s.leaveChannel now freqSt).scanActive = !s.onLast :=
    congrArg (fun t ↦ t.2.2) hplace
  have hreported := h.reported
  rw [hsweep] at hreported
  refine ⟨?_, fun hon ↦ ⟨?_, ?_, ?_⟩⟩
  · dsimp only
    rw [hsweep]
    exact ScanParams.prefix_grid hreported hlen hlt
  · rw [hscan]
    exact hsweep
  · rw [List.length_append, List.length_singleton, hlen, hidx]
    have hsmall : s.scanIdx.toNat < s.scan.count.toNat := hlt
    have hbound := s.scan.count.toNat_lt
    rw [UInt8.toNat_add]
    exact (Nat.mod_eq_of_lt (by change s.scanIdx.toNat + 1 < 256; omega)).symm
  · rw [hmore] at hon
    rw [hscan, hidx]
    simpa [Settings.onLast] using hon

def channels (es : List Effect) : List UInt32 := es.filterMap Effect.channel?

theorem channels_results (log : List (RadioWorker × Effect)) :
    channels (log.map Prod.snd) = channels (results log) := by
  unfold channels results
  rw [List.filterMap_filter]
  refine congrArg (List.filterMap · (log.map Prod.snd)) (funext fun e ↦ ?_)
  cases e <;> rfl

/-- What calls other than those that start a scan do to it, and what they report. -/
theorem workerStep_inOrder {c : Call} (hc : ∀ p now freqSt, c ≠ .startScan p now freqSt)
    {w : RadioWorker} {m : Watched} (h : InOrder w.toSettings m) :
    InOrder (workerStep w c).1.toSettings
      (m.1, m.2 ++ channels ((workerStep w c).2.map Prod.snd)) := by
  rw [channels_results]
  cases c with
  | startScan p now freqSt => exact absurd rfl (hc p now freqSt)
  | applyConfig cfg io =>
      rw [workerStep_results rfl]
      have hsame : InOrder (workerStep w (.applyConfig cfg io)).1.toSettings m := by
        rcases applyConfig_scan cfg io w with hkept | hidle
        · exact hkept ▸ h
        · exact h.stopped hidle
      simpa [channels] using hsame
  | enqueueTx frame =>
      rw [workerStep_results rfl, enqueueTx_settings]
      simpa [channels] using h
  | pollOnce io =>
      obtain ⟨hsettings, hresults⟩ := poll_scan io w
      have hguard := ticked_spec w io
      have hticked : InOrder (ticked w io) m := by
        cases hrec : recovers w io with
        | true =>
            refine h.stopped ?_
            rw [hguard.active, hrec]
            simp
        | false =>
            refine h.congr ?_
            have hactive : (ticked w io).scanActive = w.scanActive := by
              rw [hguard.active, hrec]
              simp
            have hsweep := hguard.sweep
            simp only [Settings.sweep, Prod.mk.injEq] at hsweep
            rw [Settings.place, Settings.place, hactive, hsweep.1, hsweep.2.2.1]
      change InOrder ((pollOnce io).run w).state.toSettings
        (m.1, m.2 ++ channels (results ((pollOnce io).run w).log))
      rw [hsettings, hresults]
      cases hleaves : leaves w io with
      | false => simpa [channels] using hticked
      | true =>
          have hactive : (ticked w io).scanActive = true := by
            simp only [leaves, ticks, Bool.and_eq_true] at hleaves
            rw [hguard.active, hleaves.1.1.1, hleaves.1.1.2]
            rfl
          have hleft := hticked.leave hactive io.nowMs io.scanFreqSt
          have hsweep := hguard.sweep
          simp only [Settings.sweep, Prod.mk.injEq] at hsweep
          rw [hsweep.1, hsweep.2.2.1] at hleft
          exact hleft

namespace Serial

/-! ## Along a run of the service -/

def Act.follow (m : Watched) : Act → Watched
  | sweep p => (some p, [])
  | effect e => (m.1, m.2 ++ e.channel?.toList)
  | _ => m

def lastSweep (acts : List Act) : Watched := acts.foldl Act.follow (none, [])

theorem foldl_follow_effects (es : List Effect) (m : Watched) :
    (es.map Act.effect).foldl Act.follow m = (m.1, m.2 ++ channels es) := by
  induction es generalizing m with
  | nil => simp [channels]
  | cons e es ih =>
      rw [List.map_cons, List.foldl_cons, ih]
      cases hch : e.channel? <;> simp [Act.follow, channels, hch]

/-- The acts follow the scan of the service. -/
def Sweeps (s : Service) (next : Service × List Act) : Prop :=
  ∀ m, InOrder s.worker.toSettings m → InOrder next.1.worker.toSettings (next.2.foldl Act.follow m)

namespace Sweeps

theorem trans {s s' s'' : Service} {acts acts' : List Act} (h : Sweeps s (s', acts))
    (h' : Sweeps s' (s'', acts')) : Sweeps s (s'', acts ++ acts') := by
  intro m hm
  rw [List.foldl_append]
  exact h' _ (h m hm)

/-- An act that has nothing to do with a scan. -/
theorem act {s s' : Service} {a : Act} (hworker : s'.worker = s.worker)
    (ha : ∀ m : Watched, Act.follow m a = m) : Sweeps s (s', [a]) := by
  intro m hm
  rw [List.foldl_cons, ha, hworker]
  exact hm

theorem said {s s' : Service} {acts : List Act} (h : Sweeps s (s', acts)) (e : Emission) :
    Sweeps s (s', acts ++ [.say e]) :=
  h.trans (act rfl fun _ ↦ rfl)

/-- A call that starts no scan. -/
theorem call (s : Service) {c : Call} (hc : ∀ p now freqSt, c ≠ .startScan p now freqSt) :
    Sweeps s ((s.perform c.exec).1, s.performActs c.exec) := by
  intro m hm
  rw [Service.performActs, foldl_follow_effects]
  exact workerStep_inOrder hc hm

theorem sweepActs (s : Service) (io : HandlerInput) {p : ScanParams} (hp : 0 < p.count) :
    Sweeps s ((s.startSweep io p).1, s.sweepActs io p) := by
  intro m _
  have hnone : channels (((startScan p io.now io.scanFreqSt).run s.worker).events) = [] := by
    have hresults := workerStep_results (c := .startScan p io.now io.scanFreqSt) rfl s.worker
    have hchannels := channels_results (workerStep s.worker (.startScan p io.now io.scanFreqSt)).2
    rw [hresults] at hchannels
    exact hchannels
  rw [Service.sweepActs, List.foldl_cons, Service.performActs, foldl_follow_effects, hnone]
  have hsettings := startScan_settings p io.now io.scanFreqSt s.worker
  have hplace := s.worker.toSettings.place_scanning p io.now io.scanFreqSt
  rw [← hsettings] at hplace
  have hscan : (workerStep s.worker (.startScan p io.now io.scanFreqSt)).1.scan = p :=
    congrArg Prod.fst hplace
  have hidx : (workerStep s.worker (.startScan p io.now io.scanFreqSt)).1.scanIdx = 0 :=
    congrArg (fun t ↦ t.2.1) hplace
  refine ⟨List.nil_prefix, fun _ ↦ ⟨congrArg some hscan.symm, ?_, ?_⟩⟩
  · exact congrArg UInt8.toNat hidx.symm
  · change (workerStep s.worker (.startScan p io.now io.scanFreqSt)).1.scanIdx <
      (workerStep s.worker (.startScan p io.now io.scanFreqSt)).1.scan.count
    rw [hscan, hidx]
    exact hp

/-- A CONFIG never asks for an empty sweep. -/
theorem scanParams_count (c : ParsedConfig) : 0 < c.scanParams.count := by
  unfold ParsedConfig.scanParams
  dsimp only
  split
  · split <;> decide
  · split
    · decide
    · rename_i h _
      exact UInt8.pos_iff_ne_zero.mpr h

theorem commandActs (s : Service) (io : HandlerInput) (c : Command) :
    Sweeps s ((s.handle io c).1, s.commandActs io c) := by
  have hnothing : Sweeps s (s, []) := fun _ hm ↦ hm
  cases c with
  | handleConfig body len =>
      change Sweeps s ((s.handleConfig io body).1, s.configActs io body)
      unfold Service.handleConfig Service.configActs
      dsimp only
      split
      · exact (sweepActs s io (scanParams_count _)).said _
      · have hconfig := call s (c := .applyConfig (parseConfig body).config io.config)
          fun _ _ _ h ↦ by cases h
        obtain ⟨hstate, hacts⟩ :=
          perform_discard s (applyConfig (parseConfig body).config io.config)
        rw [Call.exec, hstate, hacts] at hconfig
        exact hconfig.said _
  | handleTx payload =>
      change Sweeps s ((s.handleTx payload).1, s.txActs payload)
      unfold Service.handleTx Service.txActs
      dsimp only
      have htx := call { s with calls := s.calls + 1 } (c := .enqueueTx ⟨s.calls, payload⟩)
        fun _ _ _ h ↦ by cases h
      obtain ⟨hstate, hacts⟩ := perform_discard { s with calls := s.calls + 1 }
        (enqueueTx ⟨s.calls, payload⟩)
      rw [Call.exec, hstate, hacts] at htx
      have hanswer : ∀ (s : Service) frame t, Sweeps s (s, [.answer frame t]) :=
        fun _ _ _ ↦ act rfl fun _ ↦ rfl
      exact trans (s := s) htx ((hanswer _ _ _).said _)
  | handleScanQ count dwell freqs =>
      change Sweeps s ((s.handleScanQ io count dwell freqs).1, s.scanQActs io count dwell freqs)
      unfold Service.handleScanQ Service.scanQActs
      split
      · exact hnothing
      · rename_i hcount
        refine sweepActs s io (UInt8.pos_iff_ne_zero.mpr fun h ↦ hcount (.inl h))
  | handleReset | storeWindow => exact hnothing
  | forceStats | writeReady | writeError => exact hnothing.said _

theorem tells : Tells Sweeps where
  stay hworker _ m hm := hworker ▸ hm
  trans := trans
  server s io e := by
    have hact : ∀ a : Act, (∀ m : Watched, Act.follow m a = m) → Sweeps s (s, [a]) :=
      fun a ha ↦ act rfl ha
    cases e with
    | command c => exact (hact (.command c) fun _ ↦ rfl).trans (commandActs s io c)
    | greeting => exact ((hact .greeting fun _ ↦ rfl).said _).said _
    | periodicStats => exact hact (s.statsAct io) fun _ ↦ rfl
  poll s io := call s (c := .pollOnce io) fun _ _ _ h ↦ by cases h

end Sweeps

/-- In every run, the channels reported since the last sweep was started are the
first ones of its grid; while a scan is under way, it is that sweep, and it has
listened to no channel beyond them. -/
theorem sweeps_in_order (tcp : Bool) (now : UInt32) (io : InitInput) (is : List ServiceStep) :
    InOrder (run tell (.boot tcp now io) is).1.worker.toSettings
      (lastSweep (run tell (.boot tcp now io) is).2) := by
  refine Sweeps.tells.run (.boot tcp now io) is (none, []) ⟨List.nil_prefix, fun hon ↦ ?_⟩
  have hidle : (Service.boot tcp now io).worker.scanActive = false :=
    (Scanless.rules.init 44 io {} rfl).1
  exact absurd (hidle.symm.trans hon) (by decide)

end Serial

end RadioService
