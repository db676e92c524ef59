import Mathlib.Algebra.GroupWithZero.Nat
import RadioService.Emissions
import RadioService.RxTurn
import RadioService.Tally

/-!
# What a sweep reports

A sweep goes through its channels in order and reports each of them once.  The
packets that are read during the sweep fall into dwells, one for each report, and
a report holds what its dwell amounts to.
-/

namespace RadioService

open Burst Traced Machine

/-! ## The transcript of a sweep -/

inductive SweepEvent where
  | heard (q : Packet × Int16)
  | reported (freqHz frames consensus : UInt32) (bestRssi : Int8)
deriving DecidableEq

/-- A packet counts while the scan is active. -/
def sweepEvent? (p : RadioWorker × Effect) : Option SweepEvent :=
  match p.2 with
  | .onScanResult freqHz frames consensus best => some (.reported freqHz frames consensus best)
  | e => if p.1.scanActive then e.read?.map .heard else none

def transcript (log : List (RadioWorker × Effect)) : List SweepEvent := log.filterMap sweepEvent?

@[simp] theorem transcript_append (l l' : List (RadioWorker × Effect)) :
    transcript (l ++ l') = transcript l ++ transcript l' := List.filterMap_append

theorem sweepEvent?_of_unreported {p : RadioWorker × Effect} (h : p.2.isResult = false) :
    sweepEvent? p = if p.1.scanActive then p.2.read?.map .heard else none := by
  obtain ⟨w, e⟩ := p
  cases e <;> first | rfl | cases h

theorem transcript_eq_nil {log : List (RadioWorker × Effect)}
    (h : ∀ p ∈ log, p.2.tallies = false) : transcript log = [] :=
  List.filterMap_eq_nil_iff.mpr fun p hp ↦ by
    rw [sweepEvent?_of_unreported (Effect.isResult_of_tallies (h p hp)),
      Effect.read?_of_tallies (h p hp), Option.map_none, ite_self]

/-- The report on channel `i`, on which `ps` were heard. -/
def channelReport (p : ScanParams) (i : ℕ) (ps : List (Packet × Int16)) : SweepEvent :=
  .reported (p.startHz + UInt32.ofNat i * p.stepHz) (UInt32.ofNat ps.length)
    (UInt32.ofNat (ps.countP isConsensus)) (Int8.ofInt (bestOf ps))

/-- Dwells from channel `i` on, each with its report. -/
def sweepLog (p : ScanParams) : (i : ℕ) → List (List (Packet × Int16)) → List SweepEvent
  | _, [] => []
  | i, ps :: rest => ps.map .heard ++ channelReport p i ps :: sweepLog p (i + 1) rest

theorem sweepLog_append (p : ScanParams) (i : ℕ) (dwells : List (List (Packet × Int16)))
    (ps : List (Packet × Int16)) :
    sweepLog p i (dwells ++ [ps]) =
      sweepLog p i dwells ++ ps.map .heard ++ [channelReport p (i + dwells.length) ps] := by
  induction dwells generalizing i with
  | nil => simp [sweepLog]
  | cons qs dwells ih => simp [sweepLog, ih, Nat.add_assoc, Nat.add_comm 1]

/-! ## Behind the tick of a poll -/

theorem afterScan_scanning (io : PollInput) {w : RadioWorker} (hactive : w.scanActive = true) :
    (afterScan io).run w = if w.radioOk = false ∨ w.cfg.role = 1 then ⟨(), w, []⟩
      else ⟨(), ((rxLoop io.rx {}).run w).state, ((rxLoop io.rx {}).run w).log⟩ := by
  have hrx : ((rxLoop io.rx {}).run w).state.scanActive = true :=
    (congrArg Settings.scanActive (KeepsSettings.rxLoop io.rx {} w).1 :).trans hactive
  by_cases hok : w.radioOk = false
  · simp [RadioService.afterScan, hok]
  · by_cases hrole : w.cfg.role = 1 <;> simp [RadioService.afterScan, hok, hrole, hactive, hrx]

theorem afterScan_tally (io : PollInput) {w : RadioWorker} (hactive : w.scanActive = true) :
    (∀ q ∈ readPackets ((afterScan io).run w).log, RssiInRange q) ∧
      ((afterScan io).run w).state.tally =
        (readPackets ((afterScan io).run w).log).foldl tallied w.tally := by
  rw [afterScan_scanning io hactive]
  split
  · exact ⟨by simp [readPackets], rfl⟩
  · refine ⟨fun q hq ↦ ?_, ?_⟩
    · obtain ⟨e, he, hread⟩ := List.mem_filterMap.mp hq
      exact ((rxLoop_readsInRange io.rx {} w).2 e he).2 q hread
    · have hfollows := rxLoop_follows io.rx {} w
      dsimp only at hfollows
      rw [hactive, foldl_scanHears] at hfollows
      have hreads : readPackets ((rxLoop io.rx {}).run w).log =
          ((rxLoop io.rx {}).run w).events.filterMap Effect.read? := by
        rw [Outcome.events, List.filterMap_map]
        rfl
      rw [hreads]
      exact congrArg Prod.snd hfollows

/-! ## A sweep under way -/

/-- The sweep over `p` has left `dwells` behind and heard `current` since. -/
structure Sweeping (p : ScanParams) (w : RadioWorker) (dwells : List (List (Packet × Int16)))
    (current : List (Packet × Int16)) : Prop where
  scan : w.scan = p
  idx : w.scanActive = true → w.scanIdx = UInt8.ofNat dwells.length
  tally : w.scanActive = true → w.tally = tallyOf current
  left : w.scanActive = true → dwells.length < p.count.toNat
  done : w.scanActive = false → dwells.length = p.count.toNat ∧ current = []
  ranges : ∀ ps ∈ dwells, ∀ q ∈ ps, RssiInRange q
  range : ∀ q ∈ current, RssiInRange q

/-- A call of the sweep: neither a scan nor a CONFIG, nor a change of level. -/
def SweepCall (w : RadioWorker) : Call → Prop
  | .enqueueTx _ => True
  | .pollOnce io => pollLevel w io = w.thermalLevel
  | _ => False

namespace Sweeping

variable {p : ScanParams} {w : RadioWorker} {dwells : List (List (Packet × Int16))}
  {current : List (Packet × Int16)}

theorem start (hp : p.count ≠ 0) (now : UInt32) (freqSt : Int16) (w : RadioWorker) :
    Sweeping p (workerStep w (.startScan p now freqSt)).1 [] [] := by
  have hsettings := startScan_settings p now freqSt w
  have hscanning : (w.toSettings.scanning p now freqSt).scan = p ∧
      (w.toSettings.scanning p now freqSt).scanIdx = 0 ∧
      (w.toSettings.scanning p now freqSt).scanActive = true := by
    unfold Settings.scanning
    dsimp only
    split <;> exact ⟨rfl, rfl, rfl⟩
  rw [← hsettings] at hscanning
  obtain ⟨hscan, hidx, hactive⟩ := hscanning
  have htally : (workerStep w (.startScan p now freqSt)).1.tally = tallyOf [] :=
    (congrArg RadioWorker.tally (startScan_traffic p now freqSt w).1 :)
  have hcount : 0 < p.count.toNat := by
    rw [Nat.pos_iff_ne_zero]
    exact fun h ↦ hp (UInt8.toNat_inj.mp h)
  exact ⟨hscan, fun _ ↦ hidx, fun _ ↦ htally, fun _ ↦ hcount,
    fun h ↦ absurd (hactive.symm.trans h) (by decide), by simp, by simp⟩

theorem congr {w' : RadioWorker} (h : Sweeping p w dwells current)
    (hsweep : w'.toSettings.sweep = w.toSettings.sweep) (hactive : w'.scanActive = w.scanActive)
    (htally : w'.tally = w.tally) : Sweeping p w' dwells current := by
  have hscan : w'.scan = w.scan := (congrArg (·.1) hsweep :)
  have hidx : w'.scanIdx = w.scanIdx := (congrArg (·.2.2.1) hsweep :)
  exact ⟨hscan.trans h.scan, fun ha ↦ hidx.trans (h.idx (hactive ▸ ha)),
    fun ha ↦ htally.trans (h.tally (hactive ▸ ha)), fun ha ↦ h.left (hactive ▸ ha),
    fun ha ↦ h.done (hactive ▸ ha), h.ranges, h.range⟩

theorem afterScan (h : Sweeping p w dwells current) (io : PollInput) :
    ∃ qs, Sweeping p ((RadioService.afterScan io).run w).state dwells (current ++ qs) ∧
      transcript ((RadioService.afterScan io).run w).log = qs.map .heard := by
  obtain ⟨hkeeps, hlog⟩ := afterScan_keeps io w
  have hsame : ∀ q ∈ ((RadioService.afterScan io).run w).log,
      sweepEvent? q = if w.scanActive then q.2.read?.map .heard else none := by
    intro q hq
    have hactive : q.1.scanActive = w.scanActive := (congrArg Settings.scanActive (hlog q hq).1 :)
    rw [sweepEvent?_of_unreported (Effect.isResult_of_traffic (hlog q hq).2), hactive]
  have hscan := (congrArg Settings.scan hkeeps :).trans h.scan
  have hidx := (congrArg Settings.scanIdx hkeeps :)
  have hactive' := (congrArg Settings.scanActive hkeeps :)
  cases hactive : w.scanActive with
  | false =>
      have hidle := hactive'.trans hactive
      refine ⟨[], ?_, List.filterMap_eq_nil_iff.mpr fun q hq ↦ ?_⟩
      · rw [List.append_nil]
        exact ⟨hscan, fun ha ↦ absurd (ha.symm.trans hidle) (by decide),
          fun ha ↦ absurd (ha.symm.trans hidle) (by decide),
          fun ha ↦ absurd (ha.symm.trans hidle) (by decide), fun _ ↦ h.done hactive,
          h.ranges, h.range⟩
      · rw [hsame q hq, hactive]
        rfl
  | true =>
      obtain ⟨hrange, htally⟩ := afterScan_tally io hactive
      rw [h.tally hactive, foldl_tallied h.range hrange] at htally
      refine ⟨readPackets ((RadioService.afterScan io).run w).log, ?_, ?_⟩
      · refine ⟨hscan, fun _ ↦ hidx.trans (h.idx hactive), fun _ ↦ htally, fun _ ↦ h.left hactive,
          fun ha ↦ absurd (ha.symm.trans (hactive'.trans hactive)) (by decide), h.ranges,
          fun q hq ↦ ?_⟩
        rcases List.mem_append.mp hq with hq | hq
        · exact h.range q hq
        · exact hrange q hq
      · rw [transcript, readPackets, List.map_filterMap]
        refine List.filterMap_congr fun q hq ↦ ?_
        rw [hsame q hq, hactive]
        rfl

/-- A channel that is left is one dwell more. -/
theorem moveOn (h : Sweeping p w dwells current) (hactive : w.scanActive = true) (now : UInt32)
    (freqSt : Int16) :
    Sweeping p ((moveOn now freqSt).run w).state (dwells ++ [current]) [] := by
  have hsettings := (moveOn_does now freqSt w.toSettings w rfl).2.1
  have htraffic := (moveOn_traffic now freqSt w).1
  generalize ((RadioService.moveOn now freqSt).run w).state = w' at hsettings htraffic
  have hleft := h.left hactive
  have hcount := p.count.toNat_lt
  have hranges : ∀ ps ∈ dwells ++ [current], ∀ q ∈ ps, RssiInRange q := by
    intro ps hps
    rcases List.mem_append.mp hps with hps | hps
    · exact h.ranges ps hps
    · exact List.mem_singleton.mp hps ▸ h.range
  have hlast : w.toSettings.onLast = true ↔ p.count.toNat ≤ dwells.length + 1 := by
    rw [Settings.onLast, decide_eq_true_iff, h.scan, h.idx hactive, ge_iff_le,
      UInt8.le_iff_toNat_le, UInt8.toNat_add, UInt8.toNat_ofNat']
    change p.count.toNat ≤ (dwells.length % 2 ^ 8 + 1) % 2 ^ 8 ↔ _
    omega
  rw [Settings.leaveChannel] at hsettings
  by_cases hend : w.toSettings.onLast = true
  · rw [if_pos hend] at hsettings
    have hover : w'.scanActive = false ∧ w'.scan = w.scan := by
      obtain ⟨hidle, hscan⟩ :=
        Settings.homeward_idle { w.toSettings with scanIdx := w.scanIdx + 1 } freqSt
      rw [← hsettings] at hidle hscan
      exact ⟨hidle, hscan⟩
    have hlen : (dwells ++ [current]).length = p.count.toNat := by
      have hle := hlast.mp hend
      rw [List.length_append, List.length_singleton]
      omega
    exact ⟨hover.2.trans h.scan, fun ha ↦ absurd (ha.symm.trans hover.1) (by decide),
      fun ha ↦ absurd (ha.symm.trans hover.1) (by decide),
      fun ha ↦ absurd (ha.symm.trans hover.1) (by decide), fun _ ↦ ⟨hlen, rfl⟩, hranges, by simp⟩
  · rw [if_neg hend] at hsettings htraffic
    have hscan : w'.scan = w.scan := (congrArg Settings.scan hsettings :)
    have hidx : w'.scanIdx = w.scanIdx + 1 := (congrArg Settings.scanIdx hsettings :)
    have hactive' : w'.scanActive = w.scanActive := (congrArg Settings.scanActive hsettings :)
    have hmore : (dwells ++ [current]).length < p.count.toNat := by
      have hlt := mt hlast.mpr hend
      rw [List.length_append, List.length_singleton]
      omega
    refine ⟨hscan.trans h.scan, fun _ ↦ ?_, fun _ ↦ (congrArg RadioWorker.tally htraffic :),
      fun _ ↦ hmore, fun ha ↦ absurd (hactive.symm.trans (hactive'.symm.trans ha)) (by decide),
      hranges, by simp⟩
    rw [hidx, h.idx hactive, List.length_append, List.length_singleton, UInt8.ofNat_add]
    rfl

theorem report (h : Sweeping p w dwells current) (hactive : w.scanActive = true)
    (w' : RadioWorker) :
    sweepEvent? (w', w.report) = some (channelReport p dwells.length current) := by
  have htally := h.tally hactive
  have hframes : w.scanFrames = UInt32.ofNat current.length := congrArg (·.1) htally
  have hcons : w.scanConsensus = UInt32.ofNat (current.countP isConsensus) :=
    congrArg (·.2.1) htally
  have hbest : w.scanBestRssi = Int8.ofInt (bestOf current) := congrArg (·.2.2) htally
  have hidx : w.scanIdx.toUInt32 = UInt32.ofNat dwells.length := by
    have hleft := h.left hactive
    have hcount := p.count.toNat_lt
    rw [h.idx hactive, ← UInt32.toNat_inj, UInt8.toNat_toUInt32, UInt8.toNat_ofNat',
      UInt32.toNat_ofNat']
    omega
  rw [RadioWorker.report, channelHz, h.scan, hidx, hframes, hcons, hbest]
  rfl

theorem poll (h : Sweeping p w dwells current) {io : PollInput}
    (hlevel : pollLevel w io = w.thermalLevel) :
    ∃ dwells' current', Sweeping p ((pollOnce io).run w).state dwells' current' ∧
      sweepLog p 0 dwells ++ current.map .heard ++ transcript ((pollOnce io).run w).log =
        sweepLog p 0 dwells' ++ current'.map .heard := by
  obtain ⟨w₁, log, hguard, hrun⟩ := pollOnce_run io w
  have hrecovers : recovers w io = false := by simp [recovers, revives, hlevel]
  have hactive₁ : w₁.scanActive = w.scanActive := by
    rw [hguard.ticked.active, hrecovers, Bool.not_false, Bool.and_true]
  have h₁ : Sweeping p w₁ dwells current :=
    h.congr hguard.ticked.sweep hactive₁ hguard.tally
  have hsilent := transcript_eq_nil hguard.log
  rw [hrun]
  by_cases hcut : pollLevel w io ≥ 2
  · refine ⟨dwells, current, by rwa [if_pos hcut], ?_⟩
    rw [if_pos hcut, hsilent, List.append_nil]
  · rw [if_neg hcut]
    cases hleaves : leaves w io with
    | false =>
        obtain ⟨qs, hsweeping, htranscript⟩ := h₁.afterScan io
        refine ⟨dwells, current ++ qs, hsweeping, ?_⟩
        rw [if_neg Bool.false_ne_true, Outcome.prepend_log, transcript_append, hsilent,
          htranscript, List.map_append, List.append_assoc, List.nil_append]
    | true =>
        have hactive : w.scanActive = true := by
          simp only [leaves, ticks, Bool.and_eq_true] at hleaves
          exact hleaves.1.1.1
        obtain ⟨qs, hsweeping, htranscript⟩ :=
          (h₁.moveOn (hactive₁.trans hactive) io.nowMs io.scanFreqSt).afterScan io
        have hmove : transcript ((RadioService.moveOn io.nowMs io.scanFreqSt).run w₁).log = [] :=
          transcript_eq_nil fun q hq ↦
            Effect.tallies_of_setup ((moveOn_traffic io.nowMs io.scanFreqSt w₁).2 q hq)
        have hreport : transcript ((w₁, w.report) ::
            ((RadioService.moveOn io.nowMs io.scanFreqSt).run w₁).log) =
            [channelReport p dwells.length current] := by
          rw [transcript, List.filterMap_cons_some (h.report hactive w₁)]
          exact congrArg (_ :: ·) hmove
        refine ⟨dwells ++ [current], qs, hsweeping, ?_⟩
        rw [if_pos rfl, Outcome.prepend_log, transcript_append, transcript_append, hsilent,
          hreport, htranscript, sweepLog_append, List.nil_append, Nat.zero_add]
        simp only [List.append_assoc]

theorem step (h : Sweeping p w dwells current) {c : Call} (hc : SweepCall w c) :
    ∃ dwells' current', Sweeping p (workerStep w c).1 dwells' current' ∧
      sweepLog p 0 dwells ++ current.map .heard ++ transcript (workerStep w c).2 =
        sweepLog p 0 dwells' ++ current'.map .heard := by
  cases c with
  | applyConfig | startScan => cases hc
  | pollOnce io => exact h.poll hc
  | enqueueTx frame =>
      obtain ⟨htally, hlog⟩ := (Steady.enqueueTx frame).discard w
      have hsettings := enqueueTx_settings frame w
      have hsilent : transcript (workerStep w (.enqueueTx frame)).2 = [] :=
        transcript_eq_nil fun q hq ↦ (hlog q hq).2
      refine ⟨dwells, current, h.congr (congrArg Settings.sweep hsettings)
        (congrArg Settings.scanActive hsettings) htally, ?_⟩
      rw [hsilent, List.append_nil]

end Sweeping

/-! ## The whole sweep -/

def SweepEvent.frames : SweepEvent → ℕ
  | .reported _ frames _ _ => frames.toNat
  | .heard _ => 0

def SweepEvent.isHeard : SweepEvent → Bool
  | .heard _ => true
  | .reported _ _ _ _ => false

/-- The counters of a dwell are exact while they do not wrap, and the byte of
the best signal strength never wraps. -/
structure Exact (ps : List (Packet × Int16)) : Prop where
  frames : ps.length < 2 ^ 32 → (UInt32.ofNat ps.length).toNat = ps.length
  consensus : ps.length < 2 ^ 32 →
    (UInt32.ofNat (ps.countP isConsensus)).toNat = ps.countP isConsensus ∧
      UInt32.ofNat (ps.countP isConsensus) ≤ UInt32.ofNat ps.length
  best : (Int8.ofInt (bestOf ps)).toInt = bestOf ps
  diag : ∀ freqHz frames consensus, ∃ val : UInt32,
    .diag 53 val ∈ Serial.onWorkerScan freqHz frames consensus (Int8.ofInt (bestOf ps)) ∧
      (val.toNat : ℤ) = bestOf ps + 128

theorem exact_of_range {ps : List (Packet × Int16)} (hps : ∀ q ∈ ps, RssiInRange q) : Exact ps := by
  obtain ⟨hlow, hhigh⟩ := bestOf_range hps
  have hbest := toInt_bestOf hps
  have hcount : ps.countP isConsensus ≤ ps.length := List.countP_le_length
  have hlen : ps.length < 2 ^ 32 → (UInt32.ofNat ps.length).toNat = ps.length :=
    fun h ↦ UInt32.toNat_ofNat_of_lt' h
  have hcons : ps.length < 2 ^ 32 →
      (UInt32.ofNat (ps.countP isConsensus)).toNat = ps.countP isConsensus :=
    fun h ↦ UInt32.toNat_ofNat_of_lt' (lt_of_le_of_lt hcount h)
  refine ⟨hlen, fun h ↦ ⟨hcons h, ?_⟩, hbest, ?_⟩
  · rw [UInt32.le_iff_toNat_le, hcons h, hlen h]
    exact hcount
  · intro freqHz frames consensus
    refine ⟨((Int8.ofInt (bestOf ps)).toInt32 + 128).toUInt32, by simp [Serial.onWorkerScan], ?_⟩
    have hwide : (Int8.ofInt (bestOf ps)).toInt32.toInt = bestOf ps := by
      rw [Int8.toInt_toInt32, hbest]
    have hsum : ((Int8.ofInt (bestOf ps)).toInt32 + 128).toInt = bestOf ps + 128 := by
      have h128 : (128 : Int32).toInt = 128 := rfl
      rw [Int32.toInt_add, hwide, h128]
      exact Int.bmod_eq_of_le (by omega) (by omega)
    have hnonneg : (0 : Int32) ≤ (Int8.ofInt (bestOf ps)).toInt32 + 128 := by
      rw [Int32.le_iff_toInt_le, hsum]
      change 0 ≤ bestOf ps + 128
      omega
    rw [Int32.toNat_toUInt32_of_le hnonneg, Int32.toNatClampNeg, hsum]
    omega

/-- With exact counters the frames reported are the packets heard. -/
theorem sweepLog_frames (p : ScanParams) (i : ℕ) {dwells : List (List (Packet × Int16))}
    (h : ∀ ps ∈ dwells, ps.length < 2 ^ 32) :
    ((sweepLog p i dwells).map SweepEvent.frames).sum =
      (sweepLog p i dwells).countP SweepEvent.isHeard := by
  induction dwells generalizing i with
  | nil => rfl
  | cons ps dwells ih =>
      obtain ⟨hps, hdwells⟩ := List.forall_mem_cons.mp h
      have hheard : ((ps.map SweepEvent.heard).map SweepEvent.frames).sum = 0 := by
        simp [Function.comp_def, SweepEvent.frames]
      have hall : (ps.map SweepEvent.heard).countP SweepEvent.isHeard = ps.length := by
        rw [List.countP_map, ← List.countP_true]
        rfl
      rw [sweepLog, List.map_append, List.sum_append, hheard, List.map_cons, List.sum_cons,
        ih (i + 1) hdwells, List.countP_append, hall, List.countP_cons, channelReport]
      simp only [SweepEvent.frames, SweepEvent.isHeard, UInt32.toNat_ofNat_of_lt' hps,
        Bool.false_eq_true, ↓reduceIte, Nat.zero_add, Nat.add_zero]

/-- The sweep over `p` has come to `w`, and the log says how. -/
def Accounted (p : ScanParams) (w : RadioWorker) (log : List (RadioWorker × Effect)) : Prop :=
  ∃ dwells current, Sweeping p w dwells current ∧
    transcript log = sweepLog p 0 dwells ++ current.map .heard

/-- A sweep that nothing disturbs reports its channels in order, each with what
was heard on it, and is over behind the last. -/
theorem sweep_accounted (w : RadioWorker) (p : ScanParams) (hp : p.count ≠ 0) (now : UInt32)
    (freqSt : Int16) (calls : List Call)
    (hcalls : Along workerStep SweepCall (workerStep w (.startScan p now freqSt)).1 calls) :
    let w₀ := (workerStep w (.startScan p now freqSt)).1
    let w' := (run workerStep w₀ calls).1
    let log := (run workerStep w₀ calls).2
    ∃ dwells current, transcript log = sweepLog p 0 dwells ++ current.map .heard ∧
      (w'.scanActive = true → dwells.length < p.count.toNat) ∧
      (w'.scanActive = false → dwells.length = p.count.toNat ∧ current = []) ∧
      (∀ ps ∈ dwells, Exact ps) ∧
      (w'.scanActive = false → (∀ ps ∈ dwells, ps.length < 2 ^ 32) →
        ((transcript log).map SweepEvent.frames).sum =
          (transcript log).countP SweepEvent.isHeard) := by
  intro w₀ w' log
  have hstart : Accounted p w₀ [] := ⟨[], [], Sweeping.start hp now freqSt w, rfl⟩
  have hstep : ∀ w log c, Accounted p w log → SweepCall w c →
      Accounted p (workerStep w c).1 (log ++ (workerStep w c).2) := by
    rintro w log c ⟨dwells, current, h, hlog⟩ hc
    obtain ⟨dwells', current', h', hstep⟩ := h.step hc
    refine ⟨dwells', current', h', ?_⟩
    rw [transcript_append, hlog, hstep]
  obtain ⟨dwells, current, h, hlog⟩ := Along.history hstep hstart hcalls
  rw [List.nil_append] at hlog
  refine ⟨dwells, current, hlog, h.left, h.done,
    fun ps hps ↦ exact_of_range (h.ranges ps hps), fun hidle hlens ↦ ?_⟩
  rw [hlog, (h.done hidle).2, List.map_nil, List.append_nil]
  exact sweepLog_frames p 0 hlens

/-- A sweep over one channel, on which a packet of a burst is read in two polls. -/
theorem sweep_accounted_once :
    let pkt := (⟨kMagic, 7, 0, 1, 400, 0⟩ : Header).packet
    let calls : List Call := [.pollOnce { pollAt 1100 0 with rx := [.reading pkt] },
      .pollOnce (pollAt 4000 0)]
    let w := (workerStep booted.state (.startScan { count := 1 } 1000 0)).1
    (run workerStep w calls).1.scanActive = false ∧ ∃ dwells current,
      transcript (run workerStep w calls).2 =
        sweepLog { count := 1 } 0 dwells ++ current.map .heard ∧
      dwells.length = 1 ∧ current = [] := by
  intro pkt calls
  dsimp only
  have hcalls : Along workerStep SweepCall
      (workerStep booted.state (.startScan { count := 1 } 1000 0)).1 calls := by
    refine ⟨?_, ?_, trivial⟩
    · change pollLevel _ _ = _
      decide +kernel
    · change pollLevel _ _ = _
      decide +kernel
  have hidle : (run workerStep (workerStep booted.state (.startScan { count := 1 } 1000 0)).1
      calls).1.scanActive = false := by
    decide +kernel
  obtain ⟨dwells, current, hlog, -, hover, -⟩ := sweep_accounted booted.state { count := 1 }
    (by decide) 1000 0 calls hcalls
  obtain ⟨hlen, hcurrent⟩ := hover hidle
  exact ⟨hidle, dwells, current, hlog, hlen, hcurrent⟩

/-- While a scan is active, a poll without a tick counts what it reads. -/
theorem poll_floods {w : RadioWorker} {pkt : Packet} {io : PollInput} {n : ℕ}
    (hburst : isBurst (pkt, 0) = true) (hrx : io.rx = List.replicate n (.reading pkt))
    (hstay : leaves w io = false) (hlow : pollLevel w io < 2)
    (hactive : (ticked w io).scanActive = true) (hok : (ticked w io).radioOk = true)
    (hrole : (ticked w io).cfg.role ≠ 1) (htally : w.tally = tallyOf []) :
    readPackets ((pollOnce io).run w).log = List.replicate n (pkt, 0) ∧
      ((pollOnce io).run w).state.tally = tallyOf (List.replicate n (pkt, 0)) := by
  obtain ⟨w₁, log, hguard, hrun⟩ := pollOnce_run io w
  rw [if_neg (not_le.mpr hlow), hstay, if_neg Bool.false_ne_true] at hrun
  rw [← hguard.settings] at hactive hok hrole
  have hreads : readPackets ((RadioService.afterScan io).run w₁).log =
      List.replicate n (pkt, 0) := by
    rw [afterScan_scanning io hactive, if_neg (by simp [hok, hrole]), hrx]
    exact rxLoop_reads_all hburst n {} w₁
  obtain ⟨hrange, hcounted⟩ := afterScan_tally io hactive
  have hsilent : readPackets log = [] := by
    exact List.filterMap_eq_nil_iff.mpr fun p hp ↦
      Effect.read?_of_tallies (hguard.log p hp)
  rw [hrun, Outcome.prepend_log, readPackets_append, hsilent, hreads]
  refine ⟨rfl, hcounted.trans ?_⟩
  rw [hguard.tally, htally, foldl_tallied (by simp) hrange, hreads, List.nil_append]

/-- The worker is on the last channel of a sweep, and a poll at 4000 ms ends it. -/
structure AtLast (s : Settings) : Prop where
  active : s.scanActive = true
  ok : s.radioOk = true
  role : s.cfg.role ≠ 1
  late : before 4000 s.scanDwellUntil = false
  cool : s.thermalLevel = 0
  level : nextLevel s 4000 (pollAt 4000 0).thermal.reading = 0
  onLast : s.onLast = true

theorem AtLast.poll {w : RadioWorker} (h : AtLast w.toSettings) :
    pollLevel w (pollAt 4000 0) = w.thermalLevel ∧
      ((pollOnce (pollAt 4000 0)).run w).state.scanActive = false ∧
      results ((pollOnce (pollAt 4000 0)).run w).log = [w.report] := by
  have hlevel : pollLevel w (pollAt 4000 0) = 0 := h.level
  have hno : recovers w (pollAt 4000 0) = false := by simp [recovers, revives, h.cool]
  have hover : dwelling w (pollAt 4000 0).nowMs = false :=
    (congrArg (w.scanConsensus == 0 && ·) h.late).trans (Bool.and_false _)
  have hleaves : leaves w (pollAt 4000 0) = true := by
    rw [leaves, ticks, h.active, hno, hlevel, hover]
    rfl
  have hlast : (ticked w (pollAt 4000 0)).onLast = true := by
    have hsweep := (ticked_spec w (pollAt 4000 0)).sweep
    have hscan := (congrArg (·.1) hsweep :)
    have hidx := (congrArg (·.2.2.1) hsweep :)
    dsimp only [Settings.sweep] at hscan hidx
    rw [Settings.onLast, hscan, hidx]
    exact h.onLast
  obtain ⟨hstate, hresults⟩ := poll_scan (pollAt 4000 0) w
  rw [hleaves, if_pos rfl] at hstate hresults
  rw [Settings.leaveChannel, if_pos hlast] at hstate
  refine ⟨hlevel.trans h.cool.symm, ?_, hresults⟩
  exact (congrArg Settings.scanActive hstate :).trans (Settings.homeward_idle _ _).1

/-- `n` packets on the last channel of a sweep are reported modulo 2^32. -/
theorem sweep_floods {w : RadioWorker} {pkt : Packet} {io : PollInput} {n : ℕ}
    (hburst : isBurst (pkt, 0) = true) (hcons : isConsensus (pkt, 0) = true)
    (hrx : io.rx = List.replicate n (.reading pkt)) (hstay : leaves w io = false)
    (hlow : pollLevel w io < 2) (hs : AtLast (ticked w io)) (htally : w.tally = tallyOf []) :
    let w' := ((pollOnce io).run w).state
    AtLast w'.toSettings ∧
      readPackets ((pollOnce io).run w).log = List.replicate n (pkt, 0) ∧
      results (((pollOnce io).run w).log ++ ((pollOnce (pollAt 4000 0)).run w').log) =
        [.onScanResult (channelHz (ticked w io).scan (ticked w io).scanIdx) (UInt32.ofNat n)
          (UInt32.ofNat n) (Int8.ofInt (bestOf (List.replicate n (pkt, 0))))] := by
  intro w'
  obtain ⟨hreads, hcounted⟩ := poll_floods hburst hrx hstay hlow hs.active hs.ok hs.role htally
  obtain ⟨hstate, hnone⟩ := poll_scan io w
  rw [hstay, if_neg Bool.false_ne_true] at hstate hnone
  have hs' : AtLast w'.toSettings := hstate ▸ hs
  refine ⟨hs', hreads, ?_⟩
  have hscan : w'.scan = (ticked w io).scan := (congrArg Settings.scan hstate :)
  have hidx : w'.scanIdx = (ticked w io).scanIdx := (congrArg Settings.scanIdx hstate :)
  have hframes : w'.scanFrames = UInt32.ofNat n := by
    have h : w'.scanFrames = _ := (congrArg (·.1) hcounted :)
    rw [h, tallyOf, List.length_replicate]
  have hall : w'.scanConsensus = UInt32.ofNat n := by
    have h : w'.scanConsensus = _ := (congrArg (·.2.1) hcounted :)
    rw [h, tallyOf, List.countP_replicate, if_pos hcons]
  have hbest : w'.scanBestRssi = Int8.ofInt (bestOf (List.replicate n (pkt, 0))) :=
    (congrArg (·.2.2) hcounted :)
  rw [results_append, hnone, hs'.poll.2.2, RadioWorker.report, hscan, hidx, hframes, hall, hbest]
  rfl

theorem sweep_wraps {n : ℕ} (hn : UInt32.ofNat n = 0) :
    let pkt := (⟨kMagic, 7, 0, 1, 400, 0⟩ : Header).packet
    let flood : PollInput := { pollAt 1100 0 with rx := List.replicate n (.reading pkt) }
    let w₀ := (workerStep booted.state (.startScan { count := 1 } 1000 0)).1
    let w₁ := ((pollOnce flood).run w₀).state
    pollLevel w₀ flood = w₀.thermalLevel ∧ pollLevel w₁ (pollAt 4000 0) = w₁.thermalLevel ∧
      w₀.scanActive = true ∧ w₁.scanActive = true ∧
      ((pollOnce (pollAt 4000 0)).run w₁).state.scanActive = false ∧
      (readPackets ((pollOnce flood).run w₀).log).length = n ∧
      ∃ best, results (((pollOnce flood).run w₀).log ++
        ((pollOnce (pollAt 4000 0)).run w₁).log) = [.onScanResult 902000000 0 0 best] := by
  have hquiet : let w₀ := (workerStep booted.state (.startScan { count := 1 } 1000 0)).1
      (pollLevel w₀ (pollAt 1100 0) = w₀.thermalLevel ∧ pollLevel w₀ (pollAt 1100 0) < 2) ∧
        leaves w₀ (pollAt 1100 0) = false ∧ w₀.scanActive = true := by
    decide +kernel
  have hs : AtLast (ticked (workerStep booted.state (.startScan { count := 1 } 1000 0)).1
      (pollAt 1100 0)) :=
    ⟨by decide +kernel, by decide +kernel, by decide +kernel, by decide +kernel,
      by decide +kernel, by decide +kernel, by decide +kernel⟩
  have hchannel : channelHz (ticked (workerStep booted.state
      (.startScan { count := 1 } 1000 0)).1 (pollAt 1100 0)).scan (ticked (workerStep booted.state
      (.startScan { count := 1 } 1000 0)).1 (pollAt 1100 0)).scanIdx = 902000000 := by
    decide +kernel
  have htally := (Sweeping.start (p := { count := 1 }) (by decide) 1000 0 booted.state).tally
    hquiet.2.2
  generalize (workerStep booted.state (.startScan { count := 1 } 1000 0)).1 = w₀ at *
  intro pkt flood w w₁
  have hrx : flood.rx = List.replicate n (.reading pkt) := rfl
  have hburst : isBurst (pkt, 0) = true ∧ isConsensus (pkt, 0) = true := by decide +kernel
  obtain ⟨hs', hreads, hresults⟩ :=
    sweep_floods hburst.1 hburst.2 hrx hquiet.2.1 hquiet.1.2 hs htally
  have hchannel' : channelHz (ticked w₀ flood).scan (ticked w₀ flood).scanIdx = 902000000 :=
    hchannel
  rw [hn, hchannel'] at hresults
  exact ⟨hquiet.1.1, hs'.poll.1, hquiet.2.2, hs'.active, hs'.poll.2.1,
    (congrArg List.length hreads).trans List.length_replicate, _, hresults⟩

/-- 2^32 packets on the only channel of a sweep are reported as none. -/
theorem sweep_miscounted :
    let pkt := (⟨kMagic, 7, 0, 1, 400, 0⟩ : Header).packet
    let flood : PollInput := { pollAt 1100 0 with rx := List.replicate (2 ^ 32) (.reading pkt) }
    let w₀ := (workerStep booted.state (.startScan { count := 1 } 1000 0)).1
    let w₁ := ((pollOnce flood).run w₀).state
    pollLevel w₀ flood = w₀.thermalLevel ∧ pollLevel w₁ (pollAt 4000 0) = w₁.thermalLevel ∧
      w₀.scanActive = true ∧ w₁.scanActive = true ∧
      ((pollOnce (pollAt 4000 0)).run w₁).state.scanActive = false ∧
      (readPackets ((pollOnce flood).run w₀).log).length = 2 ^ 32 ∧
      ∃ best, results (((pollOnce flood).run w₀).log ++
        ((pollOnce (pollAt 4000 0)).run w₁).log) = [.onScanResult 902000000 0 0 best] := by
  have hwraps := sweep_wraps (n := 2 ^ 32) (by decide)
  dsimp only at hwraps ⊢
  exact hwraps

end RadioService
