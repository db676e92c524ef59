import RadioService.SimThreads

/-!
# The simulator's sweeps

A request for a sweep is dropped while one is under way, and the four events of a
channel are written one by one between the writes of the other threads.  What a run
reports is nevertheless that of whole sweeps one after the other.  A frequency beyond
32 bits ends the thread with the sweep still under way, so that none begins again.
-/

namespace RadioService.Serial

open Machine SimDevice

/-! ## Sweeps as a whole -/

namespace SimSweep

/-- The four events of a channel. -/
def channel (p : SimSweep) (i : ℕ) : List (ℕ × ℕ) :=
  (List.range 4).map fun said ↦ (50 + said, p.val i said)

def report (p : SimSweep) : List (ℕ × ℕ) := (List.range p.count).flatMap p.channel

/-- Every frequency is one that a `D` frame has room for. -/
def Fits (p : SimSweep) : Prop := ∀ i < p.count, p.freq i < 2 ^ 32

instance (p : SimSweep) : Decidable p.Fits := inferInstanceAs (Decidable (∀ i < _, _))

example : Fits ⟨2445000000, 0, 16⟩ ∧ ¬ Fits ⟨4294000000, 0, 16⟩ := by decide

end SimSweep

/-- The sweep that is asked for. -/
def SimCall.sweep? : SimCall → Option SimSweep
  | runFakeSweep freqs count _ => some ⟨(freqs.headD 0).toNat, 0, count.toNat⟩
  | handleConfig body =>
    if unpackU32 (body.take 4) = 0xFFFFFFFF then
      some ⟨(unpackU32 ((body.drop 10).take 4)).toNat, (unpackU32 ((body.drop 4).take 4)).toNat,
        min (if body.getD 8 0 = 0 then 16 else (body.getD 8 0).toNat) 16⟩
    else
      none
  | _ => none

def SimEvent.swept? : SimEvent → Option (ℕ × ℕ)
  | swept event val => some (event, val)
  | _ => none

namespace SweepStage

def sweep? : SweepStage → Option SimSweep
  | starting p | channel p _ _ => some p
  | _ => none

/-- What the sweep under way has still to report. -/
def left : SweepStage → List (ℕ × ℕ)
  | starting p => p.report
  | channel p i said =>
    (p.channel i).drop said ++ (List.range' (i + 1) (p.count - (i + 1))).flatMap p.channel
  | _ => []

def mode : SweepStage → SimMode
  | channel _ _ _ | ending | dead => .scan
  | idle | starting _ | closing => .rx

/-- The channel is one of the sweep, and not all of its events are written. -/
def Sound : SweepStage → Prop
  | channel p i said => i < p.count ∧ said ≤ 3
  | _ => True

/-- The thread goes on from `s` to `s'`, writing `said`. -/
structure Onward (s s' : SweepStage) (said : List (ℕ × ℕ)) : Prop where
  left : s.left = said ++ s'.left
  alive : s ≠ dead ∧ s' ≠ dead
  sweep : ∀ p ∈ s'.sweep?, p ∈ s.sweep?
  sound : s'.Sound

end SweepStage

/-- The requests that the parser recognises. -/
def requested (d : SimParser) (reads : List SimPoll) : List SimSweep :=
  (run SimParser.parse d reads).2.filterMap SimCall.sweep?

/-! ## Reports -/

/-- The sweeps `ps` have begun and `swept` is what has been said of them; `lost` is what
a thread that has ended leaves unsaid. -/
structure Reports (ps : List SimSweep) (swept lost : List (ℕ × ℕ)) (r : SimRig) : Prop where
  whole : swept ++ r.sweep.left ++ lost = ps.flatMap SimSweep.report
  alive : r.sweep ≠ .dead → lost = []
  dead : r.sweep = .dead → ∃ p ∈ ps.getLast?, lost <:+ p.report ∧ ¬ p.Fits
  last : ∀ p ∈ r.sweep.sweep?, p ∈ ps.getLast?
  mode : r.mode = r.sweep.mode
  stage : r.sweep.Sound

/-- A sweep that is asked for begins if none is under way, and changes nothing if one is. -/
def Begins (r : SimRig) (i : SimTurn) : Prop :=
  ∀ p ∈ requested r.parser ((simTurn r i).2.filterMap SimEvent.read?),
    (simTurn r i).1.sweep = if r.sweep = .idle then .starting p else r.sweep

namespace Reports

variable {ps : List SimSweep} {swept lost : List (ℕ × ℕ)} {r r' : SimRig}

theorem congr (h : Reports ps swept lost r) (hsweep : r'.sweep = r.sweep)
    (hmode : r'.mode = r.mode) : Reports ps swept lost r' := by
  obtain ⟨hwhole, hlost, hdead, hlast, hrmode, hstage⟩ := h
  rw [← hsweep] at hwhole hlost hdead hlast hrmode hstage
  exact ⟨hwhole, hlost, hdead, hlast, hmode.trans hrmode, hstage⟩

theorem begin (h : Reports ps swept lost r) (hidle : r.sweep = .idle) {p : SimSweep}
    (hsweep : r'.sweep = .starting p) (hmode : r'.mode = r.mode) :
    Reports (ps ++ [p]) swept lost r' := by
  have hlost : lost = [] := h.alive (by rw [hidle]; exact nofun)
  refine ⟨?_, fun _ ↦ hlost, ?_, ?_, ?_, ?_⟩
  · have hwhole := h.whole
    rw [hidle, hlost] at hwhole
    rw [hsweep, hlost, List.flatMap_append, ← hwhole]
    simp [SweepStage.left]
  · rw [hsweep]
    exact nofun
  · rw [hsweep]
    rintro q ⟨⟩
    exact List.getLast?_concat
  · rw [hmode, h.mode, hidle, hsweep]
    rfl
  · rw [hsweep]
    exact trivial

theorem onward (h : Reports ps swept lost r) {said : List (ℕ × ℕ)}
    (hsweep : r.sweep.Onward r'.sweep said) (hmode : r'.mode = r'.sweep.mode) :
    Reports ps (swept ++ said) [] r' := by
  have hwhole := h.whole
  rw [h.alive hsweep.alive.1, hsweep.left, ← List.append_assoc] at hwhole
  exact ⟨hwhole, fun _ ↦ rfl, fun hdead ↦ absurd hdead hsweep.alive.2,
    fun p hp ↦ h.last p (hsweep.sweep p hp), hmode, hsweep.sound⟩

/-- A frequency that does not fit ends the thread. -/
theorem die (h : Reports ps swept lost r) {p : SimSweep} {i said : ℕ}
    (hp : r.sweep = .channel p i said) (hfits : ¬ p.Fits) (hsuffix : r.sweep.left <:+ p.report)
    (hsweep : r'.sweep = .dead) (hmode : r'.mode = r.mode) :
    Reports ps swept r.sweep.left r' := by
  have hwhole := h.whole
  have hlast : p ∈ ps.getLast? := h.last p (by rw [hp]; rfl)
  rw [h.alive (by rw [hp]; exact nofun), List.append_nil] at hwhole
  refine ⟨?_, fun halive ↦ absurd hsweep halive, fun _ ↦ ⟨p, hlast, hsuffix, hfits⟩, ?_, ?_, ?_⟩
  · rw [hsweep]
    exact (congrArg (· ++ _) (List.append_nil swept)).trans hwhole
  · rw [hsweep]
    exact nofun
  · rw [hmode, h.mode, hp, hsweep]
    rfl
  · rw [hsweep]
    exact trivial

end Reports

/-! ## The thread of the sweep -/

theorem diag_isSome {event val : ℕ} (hevent : event < 2 ^ 8) (hval : val < 2 ^ 32) :
    (diag event val).isSome := by
  have h := diag_eq (UInt8.ofNat event) (UInt32.ofNat val)
  rw [UInt8.toNat_ofNat_of_lt' hevent, UInt32.toNat_ofNat_of_lt' hval] at h
  rw [h]
  rfl

theorem val_lt {p : SimSweep} {i : ℕ} (h : p.freq i < 2 ^ 32) (said : ℕ) :
    p.val i said < 2 ^ 32 := by
  unfold SimSweep.val
  split
  · exact h
  · split <;> decide
  · split <;> decide
  · decide

theorem onward_starting (p : SimSweep) :
    (SweepStage.starting p).Onward (if p.count = 0 then .ending else .channel p 0 0) [] := by
  split
  next hcount =>
    refine ⟨?_, ⟨nofun, nofun⟩, nofun, trivial⟩
    rw [SweepStage.left, SimSweep.report, hcount]
    rfl
  next hcount =>
    refine ⟨?_, ⟨nofun, nofun⟩, fun q hq ↦ hq, Nat.pos_of_ne_zero hcount, Nat.zero_le 3⟩
    obtain ⟨n, hn⟩ := Nat.exists_eq_succ_of_ne_zero hcount
    rw [SweepStage.left, SimSweep.report, hn, List.range_eq_range', List.range'_succ,
      SweepStage.left, hn]
    rfl

/-- What is left of a channel is an event of its own, and what is left behind it. -/
theorem onward_channel {p : SimSweep} {i said : ℕ} (hi : i < p.count) (hsaid : said ≤ 3) :
    (SweepStage.channel p i said).Onward
      (if said < 3 then .channel p i (said + 1)
        else if i + 1 < p.count then .channel p (i + 1) 0 else .ending)
      [(50 + said, p.val i said)] := by
  have hdrop : (p.channel i).drop said =
      (50 + said, p.val i said) :: (p.channel i).drop (said + 1) := by
    obtain rfl | rfl | rfl | rfl : said = 0 ∨ said = 1 ∨ said = 2 ∨ said = 3 := by omega
    all_goals rfl
  split
  next hmore =>
    refine ⟨?_, ⟨nofun, nofun⟩, fun q hq ↦ hq, hi, hmore⟩
    rw [SweepStage.left, hdrop]
    rfl
  next hlast =>
    have hsaid : said = 3 := by omega
    have hnil : (p.channel i).drop (said + 1) = [] := by rw [hsaid]; rfl
    rw [hnil] at hdrop
    split
    next hmore =>
      refine ⟨?_, ⟨nofun, nofun⟩, fun q hq ↦ hq, hmore, Nat.zero_le 3⟩
      have hcount : p.count - (i + 1) = p.count - (i + 1 + 1) + 1 := by omega
      rw [SweepStage.left, hdrop, hcount, List.range'_succ]
      rfl
    next hend =>
      refine ⟨?_, ⟨nofun, nofun⟩, nofun, trivial⟩
      have hcount : p.count - (i + 1) = 0 := by omega
      rw [SweepStage.left, hdrop, hcount]
      rfl

theorem left_suffix {p : SimSweep} {i : ℕ} (hi : i < p.count) (said : ℕ) :
    (SweepStage.channel p i said).left <:+ p.report := by
  have hcount : p.count = i + (p.count - (i + 1) + 1) := by omega
  have hreport : p.report = (List.range i).flatMap p.channel ++
      (p.channel i ++ (List.range' (i + 1) (p.count - (i + 1))).flatMap p.channel) := by
    rw [SimSweep.report, hcount, List.range_add, List.flatMap_append, ← List.range'_eq_map_range,
      List.range'_succ, List.flatMap_cons, ← hcount]
  rw [hreport, SweepStage.left]
  refine .trans ⟨(p.channel i).take said, ?_⟩ (List.suffix_append _ _)
  rw [← List.append_assoc, List.take_append_drop]

theorem not_fits_of_diag {p : SimSweep} {i said : ℕ} (hi : i < p.count) (hsaid : said ≤ 3)
    (h : diag (50 + said) (p.val i said) = none) : ¬ p.Fits := by
  intro hfits
  have hevent : 50 + said < 2 ^ 8 := by omega
  have hsome := diag_isSome hevent (val_lt (hfits i hi) said)
  rw [Nat.cast_add, Nat.cast_ofNat, h] at hsome
  cases hsome

theorem sweepTurn_reports {ps : List SimSweep} {swept lost : List (ℕ × ℕ)} {r : SimRig}
    (h : Reports ps swept lost r) :
    ∃ lost', Reports ps (swept ++ r.sweepTurn.2.filterMap SimEvent.swept?) lost' r.sweepTurn.1 := by
  have hstage := h.stage
  unfold SimRig.sweepTurn
  split
  next p hp =>
    refine ⟨[], h.onward (hp ▸ onward_starting p) ?_⟩
    dsimp only
    split <;> rfl
  next p i said hp =>
    rw [hp] at hstage
    obtain ⟨hi, hsaid⟩ := hstage
    split
    next hnone =>
      refine ⟨r.sweep.left, ?_⟩
      rw [List.filterMap_nil, List.append_nil]
      exact h.die hp (not_fits_of_diag hi hsaid hnone) (hp ▸ left_suffix hi said) rfl rfl
    next =>
      refine ⟨[], h.onward (hp ▸ onward_channel hi hsaid) (h.mode.trans ?_)⟩
      rw [hp]
      dsimp only
      split
      · rfl
      · split <;> rfl
  next hp =>
    exact ⟨[], h.onward (hp ▸ ⟨rfl, ⟨nofun, nofun⟩, nofun, trivial⟩) rfl⟩
  next hp =>
    refine ⟨[], h.onward (hp ▸ ⟨rfl, ⟨nofun, nofun⟩, nofun, trivial⟩) (h.mode.trans ?_)⟩
    rw [hp]
    rfl
  all_goals
    refine ⟨lost, ?_⟩
    rw [List.filterMap_nil, List.append_nil]
    exact h

/-! ## The other threads -/

/-- Nothing of the sweep is touched. -/
structure Leaves (r : SimRig) (next : SimRig × List SimEvent) : Prop where
  sweep : next.1.sweep = r.sweep
  mode : next.1.mode = r.mode
  silent : next.2.filterMap SimEvent.swept? = []
  unread : next.2.filterMap SimEvent.read? = []

theorem turn_silent (id : ℕ) (b : SimBurst) :
    (b.turn id).2.2.filterMap SimEvent.swept? = [] ∧
      (b.turn id).2.2.filterMap SimEvent.read? = [] := by
  constructor
  all_goals
    refine List.filterMap_eq_nil_iff.mpr fun e he ↦ ?_
    obtain ⟨p, rfl⟩ := turn_packets id b e he
    rfl

theorem txTurn_leaves (r : SimRig) : Leaves r r.txTurn := by
  unfold SimRig.txTurn
  split
  · split <;> exact ⟨rfl, rfl, rfl, rfl⟩
  · exact ⟨rfl, rfl, rfl, rfl⟩
  next b _ => exact ⟨rfl, rfl, (turn_silent r.burstId b).1, (turn_silent r.burstId b).2⟩
  · exact ⟨rfl, rfl, rfl, rfl⟩

theorem generatorTurn_leaves (r : SimRig) : Leaves r r.generatorTurn := by
  unfold SimRig.generatorTurn
  generalize generatorPayload = payload
  split
  · split <;> exact ⟨rfl, rfl, rfl, rfl⟩
  next b _ => exact ⟨rfl, rfl, (turn_silent r.burstId b).1, (turn_silent r.burstId b).2⟩
  · exact ⟨rfl, rfl, rfl, rfl⟩

theorem handleConfig_eq (r : SimRig) (body : List UInt8) :
    r.handleConfig body = (SimCall.handleConfig body).sweep?.elim r r.runFakeSweep := by
  by_cases h : unpackU32 (body.take 4) = 0xFFFFFFFF
  · have hask : (SimCall.handleConfig body).sweep? = some _ := if_pos h
    rw [hask, SimRig.handleConfig, if_pos h]
    rfl
  · have hask : (SimCall.handleConfig body).sweep? = none := if_neg h
    rw [hask, SimRig.handleConfig, if_neg h]
    rfl

theorem handleCall_sweep (r : SimRig) (c : SimCall) :
    (r.handleCall c).1.sweep =
        (c.sweep?.elim r.sweep fun p ↦ if r.sweep = .idle then .starting p else r.sweep) ∧
      (r.handleCall c).1.mode = r.mode ∧
      (r.handleCall c).2.filterMap SimEvent.swept? = [] := by
  have hrun : ∀ p, (r.runFakeSweep p).sweep = (if r.sweep = .idle then .starting p else r.sweep) ∧
      (r.runFakeSweep p).mode = r.mode := by
    intro p
    unfold SimRig.runFakeSweep
    split <;> exact ⟨rfl, rfl⟩
  cases c with
  | statsFrame | reset | ready | error => exact ⟨rfl, rfl, rfl⟩
  | runFakeSweep freqs count dwell => exact ⟨(hrun _).1, (hrun _).2, rfl⟩
  | handleConfig body =>
      change (r.handleConfig body).sweep = _ ∧ (r.handleConfig body).mode = _ ∧ _
      rw [handleConfig_eq]
      cases (SimCall.handleConfig body).sweep? with
      | none => exact ⟨rfl, rfl, rfl⟩
      | some p => exact ⟨(hrun p).1, (hrun p).2, rfl⟩
  | handleTx payload =>
      rw [SimRig.handleCall]
      split <;> exact ⟨rfl, rfl, rfl⟩

theorem run_handleCall_sweep (r : SimRig) {calls : List SimCall} (hle : calls.length ≤ 1) :
    let next := run SimRig.handleCall r calls
    next.1.sweep = ((calls.filterMap SimCall.sweep?).head?.elim r.sweep fun p ↦
        if r.sweep = .idle then .starting p else r.sweep) ∧
      next.1.mode = r.mode ∧ next.2.filterMap SimEvent.swept? = [] := by
  match calls with
  | [] => exact ⟨rfl, rfl, rfl⟩
  | [c] =>
      intro next
      have hnext : next = r.handleCall c := by simp [next, run_cons, run_nil]
      obtain ⟨hsweep, hmode, hsilent⟩ := handleCall_sweep r c
      rw [hnext]
      refine ⟨hsweep.trans ?_, hmode, hsilent⟩
      cases hask : c.sweep? <;> simp [hask]
  | _ :: _ :: _ => simp at hle

/-! ## Runs -/

theorem requested_nil (d : SimParser) : requested d [] = [] := rfl

theorem requested_append (d : SimParser) (reads reads' : List SimPoll) :
    requested d (reads ++ reads') =
      requested d reads ++ requested (run SimParser.parse d reads).1 reads' := by
  rw [requested, run_append, List.filterMap_append]
  rfl

theorem requested_poll (d : SimParser) (p : SimPoll) :
    requested d [p] = (d.parse p).2.filterMap SimCall.sweep? := by
  rw [requested, run_cons, run_nil, List.append_nil]

theorem length_requested_poll (d : SimParser) (p : SimPoll) : (requested d [p]).length ≤ 1 := by
  rw [requested_poll]
  exact (List.length_filterMap_le _ _).trans (length_parse_le d p)

theorem poll_sweep {r : SimRig} {p : SimPoll} (hpending : r.pending = []) :
    let next := simTurn r (.poll p)
    next.1.sweep = ((requested r.parser [p]).head?.elim r.sweep fun q ↦
        if r.sweep = .idle then .starting q else r.sweep) ∧
      next.1.mode = r.mode ∧ next.2.filterMap SimEvent.swept? = [] ∧
      next.2.filterMap SimEvent.read? = [p] := by
  have hle := length_parse_le r.parser p
  rw [requested_poll, simTurn, if_pos hpending]
  generalize r.parser.parse p = x at hle ⊢
  obtain ⟨d, calls⟩ := x
  obtain ⟨hsweep, hmode, hsilent⟩ := run_handleCall_sweep { r with parser := d } hle
  exact ⟨hsweep, hmode, hsilent,
    congrArg (p :: ·) (run_handleCall_takes { r with parser := d } calls).read⟩

/-- The turns of the other threads. -/
theorem simTurn_leaves (r : SimRig) {i : SimTurn} (hsweep : i ≠ .sweep)
    (hpoll : ∀ p, i = .poll p → r.pending ≠ []) : Leaves r (simTurn r i) := by
  cases i with
  | poll p =>
      rw [simTurn, if_neg (hpoll p rfl)]
      exact ⟨rfl, rfl, rfl, rfl⟩
  | say =>
      rw [simTurn]
      split <;> exact ⟨rfl, rfl, rfl, rfl⟩
  | tx => exact txTurn_leaves r
  | generator => exact generatorTurn_leaves r
  | sweep => exact absurd rfl hsweep

theorem sweepTurn_unread (r : SimRig) : r.sweepTurn.2.filterMap SimEvent.read? = [] := by
  unfold SimRig.sweepTurn
  split
  · rfl
  · split <;> rfl
  all_goals rfl

theorem simTurn_begins (r : SimRig) (i : SimTurn) : Begins r i := by
  intro q hq
  by_cases hpoll : ∃ p, i = .poll p ∧ r.pending = []
  · obtain ⟨p, rfl, hpending⟩ := hpoll
    obtain ⟨hsweep, -, -, hreads⟩ := poll_sweep (p := p) hpending
    have hle := length_requested_poll r.parser p
    rw [hreads] at hq
    rw [hsweep]
    obtain ⟨q', hq'⟩ := List.length_eq_one_iff.mp (le_antisymm hle (List.length_pos_of_mem hq))
    rw [hq'] at hq ⊢
    rw [List.mem_singleton.mp hq]
    rfl
  · have hunread : (simTurn r i).2.filterMap SimEvent.read? = [] := by
      by_cases hi : i = .sweep
      · rw [hi]
        exact sweepTurn_unread r
      · exact (simTurn_leaves r hi fun p hp hpending ↦ hpoll ⟨p, hp, hpending⟩).unread
    rw [hunread, requested_nil] at hq
    cases hq

theorem simTurn_reports {ps : List SimSweep} {swept lost : List (ℕ × ℕ)} {r : SimRig}
    (h : Reports ps swept lost r) (i : SimTurn) :
    ∃ begun lost',
      begun.Sublist (requested r.parser ((simTurn r i).2.filterMap SimEvent.read?)) ∧
      Reports (ps ++ begun) (swept ++ (simTurn r i).2.filterMap SimEvent.swept?) lost'
        (simTurn r i).1 := by
  by_cases hi : i = .sweep
  · obtain ⟨lost', hlost'⟩ := sweepTurn_reports h
    refine ⟨[], lost', List.nil_sublist _, ?_⟩
    rw [List.append_nil, hi]
    exact hlost'
  by_cases hpoll : ∃ p, i = .poll p ∧ r.pending = []
  · obtain ⟨p, rfl, hpending⟩ := hpoll
    obtain ⟨hsweep, hmode, hsilent, hreads⟩ := poll_sweep (p := p) hpending
    rw [hsilent, hreads, List.append_nil]
    by_cases hidle : r.sweep = .idle
    · cases hask : (requested r.parser [p]).head? with
      | none =>
          rw [hask] at hsweep
          refine ⟨[], lost, List.nil_sublist _, ?_⟩
          rw [List.append_nil]
          exact h.congr hsweep hmode
      | some q =>
          rw [hask] at hsweep
          refine ⟨[q], lost, ?_, h.begin hidle (hsweep.trans (if_pos hidle)) hmode⟩
          exact List.singleton_sublist.mpr (List.mem_of_mem_head? hask)
    · refine ⟨[], lost, List.nil_sublist _, ?_⟩
      rw [List.append_nil]
      refine h.congr (hsweep.trans ?_) hmode
      cases (requested r.parser [p]).head? with
      | none => rfl
      | some q => exact if_neg hidle
  · have hleaves := simTurn_leaves r hi fun p hp hpending ↦ hpoll ⟨p, hp, hpending⟩
    refine ⟨[], lost, List.nil_sublist _, ?_⟩
    rw [hleaves.silent, List.append_nil, List.append_nil]
    exact h.congr hleaves.sweep hleaves.mode

theorem run_simTurn_reports {ps : List SimSweep} {swept lost : List (ℕ × ℕ)} {r : SimRig}
    (h : Reports ps swept lost r) (turns : List SimTurn) :
    ∃ begun lost',
      begun.Sublist (requested r.parser ((run simTurn r turns).2.filterMap SimEvent.read?)) ∧
      Reports (ps ++ begun) (swept ++ (run simTurn r turns).2.filterMap SimEvent.swept?) lost'
        (run simTurn r turns).1 := by
  induction turns generalizing ps swept lost r with
  | nil =>
      refine ⟨[], lost, List.nil_sublist _, ?_⟩
      rw [run_nil, List.filterMap_nil, List.append_nil, List.append_nil]
      exact h
  | cons i turns ih =>
      obtain ⟨begun, lost₁, hbegun, hi⟩ := simTurn_reports h i
      obtain ⟨more, lost₂, hmore, hturns⟩ := ih hi
      refine ⟨begun ++ more, lost₂, ?_, ?_⟩
      · rw [run_cons, List.filterMap_append, requested_append]
        rw [(simTurn_handles r i).parser] at hmore
        exact hbegun.append hmore
      · rw [run_cons, List.filterMap_append, ← List.append_assoc, ← List.append_assoc]
        exact hturns

/-- Whatever the order of the threads: a sweep that is asked for begins if none is under
way, and the events of a run, with what the sweep under way has still to say, are those
of whole sweeps that were asked for, in their order.  If every one that is asked for
fits then the thread does not end; where it ends the rest of the last sweep is lost, and
the device stays in `scan`. -/
theorem sim_sweeps_reported (every : ℕ) (turns : List SimTurn) :
    let r := run simTurn { every := every } turns
    let asked := requested {} (r.2.filterMap SimEvent.read?)
    Along simTurn Begins { every := every } turns ∧ r.1.mode = r.1.sweep.mode ∧
      (∃ (begun : List SimSweep) (lost : List (ℕ × ℕ)), begun.Sublist asked ∧
        r.2.filterMap SimEvent.swept? ++ r.1.sweep.left ++ lost =
          begun.flatMap SimSweep.report ∧
        (r.1.sweep ≠ .dead → lost = []) ∧
        (r.1.sweep = .dead → ∃ p ∈ begun.getLast?, lost <:+ p.report ∧ ¬ p.Fits)) ∧
      ((∀ p ∈ asked, p.Fits) → r.1.sweep ≠ .dead) := by
  intro r asked
  have hstart : Reports [] [] [] ({ every := every } : SimRig) :=
    ⟨rfl, fun _ ↦ rfl, nofun, nofun, rfl, trivial⟩
  obtain ⟨begun, lost, hbegun, h⟩ := run_simTurn_reports hstart turns
  rw [List.nil_append, List.nil_append] at h
  refine ⟨Along.of_forall (fun i _ s ↦ simTurn_begins s i) _, h.mode,
    ⟨begun, lost, hbegun, h.whole, h.alive, h.dead⟩, fun hfits hdead ↦ ?_⟩
  obtain ⟨p, hp, -, hnot⟩ := h.dead hdead
  exact hnot (hfits p (hbegun.subset (List.mem_of_getLast? hp)))

end RadioService.Serial
