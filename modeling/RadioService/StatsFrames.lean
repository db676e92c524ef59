import RadioService.Accounts
import RadioService.Relay

/-!
# What a stats frame says

A stats frame shows the counters at the moment it is written.  So it can be held
against the frames in front of it: `burstsRx` counts the `R` frames that end a
burst, and the counters that are copies agree.
-/

namespace RadioService

open Burst Stats Traced Machine

namespace Serial

open Streams

/-- The acts keep the accounts, and the stats frames among them show them. -/
def Shows (s : Service) (next : Service × List Act) : Prop :=
  Booked s.worker.st (next.2.filterMap Act.effect?) next.1.worker.st ∧
    ∀ pre c post, next.2 = pre ++ .say (.stats c) :: post →
      Booked s.worker.st (pre.filterMap Act.effect?) c

namespace Shows

theorem trans {s s' s'' : Service} {acts acts' : List Act} (h : Shows s (s', acts))
    (h' : Shows s' (s'', acts')) : Shows s (s'', acts ++ acts') := by
  refine ⟨?_, fun pre c post hsplit ↦ ?_⟩
  · rw [List.filterMap_append]
    exact h.1.trans h'.1
  · rcases List.append_eq_append_iff.mp hsplit with ⟨mid, hpre, hacts'⟩ | ⟨mid, hacts, hmid⟩
    · rw [hpre, List.filterMap_append]
      exact h.1.trans (h'.2 mid c post hacts')
    · cases mid with
      | nil =>
          rw [List.append_nil] at hacts
          have hfirst := h'.2 [] c post (by simpa using hmid.symm)
          rw [← hacts, ← List.append_nil (acts.filterMap Act.effect?)]
          exact h.1.trans hfirst
      | cons a mid =>
          obtain ⟨rfl, -⟩ := List.cons_eq_cons.mp hmid
          exact h.2 pre c mid hacts

/-- Acts of which none is a stats frame. -/
theorem of_unstated {s s' : Service} {acts : List Act}
    (hbooked : Booked s.worker.st (acts.filterMap Act.effect?) s'.worker.st)
    (h : ∀ c, .say (.stats c) ∉ acts) : Shows s (s', acts) := by
  refine ⟨hbooked, fun pre c post hsplit ↦ absurd ?_ (h c)⟩
  dsimp only at hsplit
  rw [hsplit]
  exact List.mem_append_right pre List.mem_cons_self

/-- An act that is no effect and no stats frame. -/
theorem act {s s' : Service} {a : Act} (hworker : s'.worker = s.worker)
    (heffect : a.effect? = none) (h : ∀ c, a ≠ .say (.stats c)) : Shows s (s', [a]) := by
  refine of_unstated ?_ fun c hc ↦ h c (List.mem_singleton.mp hc).symm
  rw [List.filterMap_cons, heffect, hworker]
  exact Booked.of_deaf rfl fun _ he ↦ absurd he List.not_mem_nil

theorem stats (s : Service) (io : HandlerInput) : Shows s (s, [s.statsAct io]) := by
  have hnone : Booked s.worker.st [] s.worker.st :=
    Booked.of_deaf rfl fun _ he ↦ absurd he List.not_mem_nil
  refine ⟨hnone, fun pre c post hsplit ↦ ?_⟩
  obtain ⟨rfl, hstats⟩ | hlong := List.append_eq_singleton_iff.mp hsplit.symm
  · obtain ⟨hc, -⟩ := List.cons_eq_cons.mp hstats
    cases hc
    exact ⟨rfl, (UInt32.add_zero _).symm, (UInt32.add_zero _).symm⟩
  · cases hlong.2

theorem performActs {α : Type} {s : Service} {m : Work α} (hm : Books m) :
    Shows s ((s.perform m).1, s.performActs m) := by
  refine of_unstated ?_ fun c hc ↦ ?_
  · have heffects : (s.performActs m).filterMap Act.effect? = (m.run s.worker).events := by
      simp [Service.performActs, List.filterMap_map, Act.effect?, Function.comp_def]
    rw [heffects]
    exact hm s.worker
  · obtain ⟨e, -, he⟩ := List.mem_map.mp hc
    cases he

theorem sweepActs (s : Service) (io : HandlerInput) (p : ScanParams) :
    Shows s ((s.startSweep io p).1, s.sweepActs io p) := by
  have hsweep : Shows s (s, [.sweep p]) := act rfl rfl fun _ h ↦ by cases h
  exact hsweep.trans (performActs (Still.startScan p io.now io.scanFreqSt).books)

/-- A frame that is no stats frame, behind other acts. -/
theorem said {s s' : Service} {acts : List Act} (h : Shows s (s', acts)) {e : Emission}
    (he : ∀ c, e ≠ .stats c) : Shows s (s', acts ++ [.say e]) :=
  h.trans (act rfl rfl fun c hc ↦ he c (by cases hc; rfl))

theorem commandActs (s : Service) (io : HandlerInput) (c : Command) :
    Shows s ((s.handle io c).1, s.commandActs io c) := by
  have hnothing : Shows s (s, []) :=
    of_unstated (Booked.of_deaf rfl fun _ he ↦ absurd he List.not_mem_nil)
      fun _ hc ↦ absurd hc List.not_mem_nil
  cases c with
  | handleConfig body len =>
      change Shows s ((s.handleConfig io body).1, s.configActs io body)
      unfold Service.handleConfig Service.configActs
      dsimp only
      split
      · exact (sweepActs s io _).said fun _ h ↦ by cases h
      · have hconfig : Books (applyConfig (parseConfig body).config io.config) :=
          (Still.rules.applyConfig _ _).books
        refine (performActs hconfig).said fun c h ↦ ?_
        split at h <;> cases h
  | handleTx payload =>
      change Shows s ((s.handleTx payload).1, s.txActs payload)
      unfold Service.handleTx Service.txActs
      dsimp only
      have hanswer : ∀ (s : Service) frame t, Shows s (s, [.answer frame t]) :=
        fun s frame t ↦ act rfl rfl fun _ h ↦ by cases h
      have htx : Shows s
          (({ s with calls := s.calls + 1 } : Service).perform (enqueueTx ⟨s.calls, payload⟩) |>.1,
            s.performActs (enqueueTx ⟨s.calls, payload⟩)) :=
        performActs (s := { s with calls := s.calls + 1 }) (Still.enqueueTx _).books
      refine htx.trans ((hanswer _ _ _).said fun c h ↦ ?_)
      split at h <;> cases h
  | handleScanQ count dwell freqs =>
      change Shows s ((s.handleScanQ io count dwell freqs).1, s.scanQActs io count dwell freqs)
      unfold Service.handleScanQ Service.scanQActs
      split
      · exact hnothing
      · exact sweepActs s io _
  | forceStats => exact stats s io
  | handleReset | storeWindow => exact hnothing
  | writeReady | writeError => exact hnothing.said fun _ h ↦ by cases h

theorem tells : Tells Shows where
  stay hworker _ := of_unstated
    (hworker ▸ Booked.of_deaf rfl fun _ he ↦ absurd he List.not_mem_nil)
    fun _ hc ↦ absurd hc List.not_mem_nil
  trans := trans
  server s io e := by
    cases e with
    | command c =>
        have hcommand : Shows s (s, [.command c]) := act rfl rfl fun _ h ↦ by cases h
        exact hcommand.trans (commandActs s io c)
    | greeting =>
        have hgreeting : Shows s (s, [.greeting]) := act rfl rfl fun _ h ↦ by cases h
        exact (hgreeting.said fun _ h ↦ by cases h).trans (stats s io)
    | periodicStats => exact stats s io
  poll s io := performActs (Books.pollOnce io)

end Shows

/-! ## On the wire -/

theorem append_split {α : Type} {xs ys before after : List α} {y : α} (hy : y ∉ xs)
    (h : xs ++ ys = before ++ y :: after) :
    ∃ before', before = xs ++ before' ∧ ys = before' ++ y :: after := by
  rcases List.append_eq_append_iff.mp h with ⟨mid, hbefore, hys⟩ | ⟨mid, hxs, hmid⟩
  · exact ⟨mid, hbefore, hys⟩
  · cases mid with
    | nil => exact ⟨[], by rw [hxs, List.append_nil, List.append_nil], hmid.symm⟩
    | cons a mid =>
        obtain ⟨rfl, -⟩ := List.cons_eq_cons.mp hmid
        rw [hxs] at hy
        exact absurd (List.mem_append_right before List.mem_cons_self) hy

theorem stats_not_mem_onWorkerEffect (e : Effect) (c : Counters) :
    .stats c ∉ onWorkerEffect e := by
  intro h
  cases e with
  | onTxTerminal frame t => cases t <;> cases List.mem_singleton.mp h
  | onRxPacket pkt rssi => cases List.mem_singleton.mp h
  | onScanResult => simp [onWorkerEffect, onWorkerScan] at h
  | _ => cases h

/-- A stats frame was written by the server, and what is in front of it was
written before. -/
theorem stats_said {acts : List Act} {before after : List Emission} {c : Counters}
    (h : (emissions acts).map Emission.received = before ++ .stats c :: after) :
    ∃ pre post, acts = pre ++ .say (.stats c) :: post ∧
      (emissions pre).map Emission.received = before := by
  induction acts generalizing before with
  | nil => exact absurd h.symm (by simp [emissions])
  | cons a acts ih =>
      rw [emissions, List.flatMap_cons, List.map_append] at h
      by_cases hstats : Emission.stats c ∈ a.emissions.map Emission.received
      · have ha : a = .say (.stats c) := by
          obtain ⟨e, he, hreceived⟩ := List.mem_map.mp hstats
          cases e with
          | stats c' =>
              cases hreceived
              cases a with
              | effect e => exact absurd he (stats_not_mem_onWorkerEffect e c)
              | say e => exact congrArg Act.say (List.mem_singleton.mp he).symm
              | _ => cases he
          | _ => cases hreceived
        subst ha
        cases before with
        | nil => exact ⟨[], acts, rfl, rfl⟩
        | cons b before =>
            obtain ⟨rfl, hrest⟩ := List.cons_eq_cons.mp h
            obtain ⟨pre, post, rfl, hpre⟩ := ih hrest
            exact ⟨.say (.stats c) :: pre, post, rfl, congrArg (Emission.stats c :: ·) hpre⟩
      · obtain ⟨before', rfl, hrest⟩ := append_split hstats h
        obtain ⟨pre, post, rfl, hpre⟩ := ih hrest
        refine ⟨a :: pre, post, rfl, ?_⟩
        rw [emissions, List.flatMap_cons, List.map_append]
        exact congrArg _ hpre

theorem received_boot (tcp : Bool) (now : UInt32) (io : InitInput) :
    (Service.boot tcp now io).worker.st.received = ({} : Counters).received :=
  (Still.rules.init 44 io {}).1

end Serial

end RadioService
