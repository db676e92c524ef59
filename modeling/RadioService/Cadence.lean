import RadioService.Machine.Monitors
import RadioService.StatsFrames

/-!
# How often the counters are sent

A stats frame goes out when a client is greeted, when the host asks for it, and when the
last one is 10 s old.  The server knows only the low 32 bits of the clock; here it runs
beside a clock that does not wrap.
-/

namespace RadioService.Serial

open Machine

inductive StatsCause where
  | greeting
  | forced
  | periodic
deriving DecidableEq

/-- The server, the clock, when the counters were last sent, and when the timer was last
looked at. -/
structure TimedServer where
  server : SerialServer
  nowMs : ℕ
  statsMs : ℕ
  checkedMs : ℕ

/-- What the server meets, and how long after what it met before.  Behind a byte the
clock is read at up to three places. -/
inductive TimedOp where
  | accept (gap : ℕ)
  | byte (b : UInt8) (gap force tick : ℕ)
  | empty (gap : ℕ)
  | close (gap : ℕ)

namespace TimedOp

def toOp (t : ℕ) : TimedOp → ServerOp
  | accept gap => .accept (UInt32.ofNat (t + gap))
  | byte b gap force tick =>
    .byte {
      byte := b
      now := UInt32.ofNat (t + gap)
      forceNow := UInt32.ofNat (t + gap + force)
      tickNow := UInt32.ofNat (t + gap + force + tick) }
  | empty gap => .empty (UInt32.ofNat (t + gap))
  | close _ => .close

/-- When the host's own request is answered. -/
def forcedMs (t : ℕ) : TimedOp → ℕ
  | byte _ gap force _ => t + gap + force
  | accept gap | empty gap | close gap => t + gap

def doneMs (t : ℕ) : TimedOp → ℕ
  | byte _ gap force tick => t + gap + force + tick
  | accept gap | empty gap | close gap => t + gap

/-- The stats frame that an event brings about, and its time. -/
def sent? (t : ℕ) (i : TimedOp) : ServerEvent → Option (ℕ × StatsCause)
  | .greeting => some (i.doneMs t, .greeting)
  | .command .forceStats => some (i.forcedMs t, .forced)
  | .periodicStats => some (i.doneMs t, .periodic)
  | .command _ => none

end TimedOp

/-- Whether the timer is looked at, or set anew by a client. -/
def SerialServer.checks (s : SerialServer) : ServerOp → Bool
  | .accept _ => s.isTcp && !s.connected
  | .byte r => s.connected && (idleResync s.toClockedParser r.now).parser.skipRemain == 0
  | .empty _ => s.connected
  | .close => false

/-- A stats frame that nobody asked for is no sooner than 10 s behind the last one. -/
def statsMonitor : Monitor ℕ (ℕ × StatsCause) where
  next _ e := e.1
  Allows last e := e.2 = .periodic → last + 10000 ≤ e.1

def cadenceStep : Step TimedServer TimedOp (ℕ × StatsCause) := fun s i ↦
  let op := i.toOp s.nowMs
  let (server, es) := serverStep s.server op
  let sent := es.filterMap (i.sent? s.nowMs)
  ({ server := server
     nowMs := i.doneMs s.nowMs
     statsMs := statsMonitor.after s.statsMs sent
     checkedMs := if s.server.checks op then i.doneMs s.nowMs else s.checkedMs }, sent)

def TimedServer.boot (tcp : Bool) (bootMs : ℕ) : TimedServer where
  server := (Service.boot tcp (UInt32.ofNat bootMs) {}).server
  nowMs := bootMs
  statsMs := bootMs
  checkedMs := bootMs

def Emission.isStats : Emission → Bool
  | stats _ => true
  | _ => false

/-- For each of these events the service writes one stats frame, and for no other. -/
theorem countP_isStats_serverActs (s : Service) (io : HandlerInput) (t : ℕ) (i : TimedOp)
    (e : ServerEvent) :
    (emissions (s.serverActs io e)).countP Emission.isStats = (i.sent? t e).toList.length := by
  have hworker : ∀ es : List Effect,
      (emissions (es.map Act.effect)).countP Emission.isStats = 0 := by
    intro es
    refine List.countP_eq_zero.mpr fun x hx ↦ ?_
    obtain ⟨a, ha, hxa⟩ := List.mem_flatMap.mp hx
    obtain ⟨effect, -, rfl⟩ := List.mem_map.mp ha
    cases x with
    | stats c => exact absurd hxa (stats_not_mem_onWorkerEffect effect c)
    | _ => exact Bool.false_ne_true
  have hsweep : ∀ p, (emissions (s.sweepActs io p)).countP Emission.isStats = 0 :=
    fun p ↦ hworker _
  cases e with
  | greeting => rfl
  | periodicStats => rfl
  | command c =>
      have hcommand : emissions (s.serverActs io (.command c)) = emissions (s.commandActs io c) :=
        rfl
      rw [hcommand]
      cases c with
      | forceStats => rfl
      | handleReset => rfl
      | storeWindow _ _ => rfl
      | writeReady _ => rfl
      | writeError _ _ => rfl
      | handleConfig body _ =>
          change (emissions (s.configActs io body)).countP _ = 0
          unfold Service.configActs
          dsimp only
          split
          · rw [emissions_append, List.countP_append, hsweep]
            rfl
          · rw [emissions_append, List.countP_append, Service.performActs, hworker]
            split <;> rfl
      | handleTx payload =>
          change (emissions (s.txActs payload)).countP _ = 0
          unfold Service.txActs
          dsimp only
          rw [emissions_append, List.countP_append, Service.performActs, hworker]
          split <;> rfl
      | handleScanQ count dwell freqs =>
          change (emissions (s.scanQActs io count dwell freqs)).countP _ = 0
          unfold Service.scanQActs
          split
          · rfl
          · exact hsweep _

/-! ## The timer -/

/-- The age of the last stats frame as the server sees it. -/
theorem age_eq {last t : ℕ} (h : last ≤ t) :
    (UInt32.ofNat t - UInt32.ofNat last).toNat = (t - last) % 2 ^ 32 := by
  rw [UInt32.toNat_sub, UInt32.toNat_ofNat', UInt32.toNat_ofNat']
  omega

theorem expired_iff {last t : ℕ} (h : last ≤ t) :
    UInt32.ofNat t - UInt32.ofNat last ≥ 10000 ↔ 10000 ≤ (t - last) % 2 ^ 32 := by
  rw [← age_eq h, ge_iff_le, UInt32.le_iff_toNat_le]
  rfl

/-- A look at the timer, where the last stats frame was sent at `last`. -/
structure Looked (last t : ℕ) (s : SerialServer) (next : SerialServer × List ServerEvent)
    (last' : ℕ) : Prop where
  timer : next.1.lastStatsMs = UInt32.ofNat last'
  clocked : next.1.toClockedParser = s.toClockedParser
  connected : next.1.connected = s.connected
  isTcp : next.1.isTcp = s.isTcp
  sends : next.2 = [] ∧ last' = last ∧ (t - last) % 2 ^ 32 < 10000 ∨
    next.2 = [.periodicStats] ∧ last' = t ∧ last + 10000 ≤ t

theorem maybeEmitStats_looked {s : SerialServer} {last t : ℕ}
    (hs : s.lastStatsMs = UInt32.ofNat last) (h : last ≤ t) :
    ∃ last', Looked last t s (maybeEmitStats s (UInt32.ofNat t)) last' := by
  unfold maybeEmitStats
  rw [hs]
  split
  next hold =>
    have hmod := (expired_iff h).mp hold
    have hle := Nat.mod_le (t - last) (2 ^ 32)
    exact ⟨t, rfl, rfl, rfl, rfl, .inr ⟨rfl, rfl, by omega⟩⟩
  next hold =>
    have hmod := Nat.lt_of_not_le fun hle ↦ hold ((expired_iff h).mpr hle)
    exact ⟨last, hs, rfl, rfl, rfl, .inl ⟨rfl, rfl, hmod⟩⟩

/-- The answers to the host are no periodic frames, and the last of them is the last. -/
theorem commands_sent (t last : ℕ) (i : TimedOp) (cs : List Command) :
    statsMonitor.Passes last ((cs.map ServerEvent.command).filterMap (i.sent? t)) ∧
      statsMonitor.after last ((cs.map ServerEvent.command).filterMap (i.sent? t)) =
        if .forceStats ∈ cs then i.forcedMs t else last := by
  induction cs generalizing last with
  | nil => exact ⟨trivial, rfl⟩
  | cons c cs ih =>
      by_cases hc : c = .forceStats
      · subst hc
        obtain ⟨hpasses, hafter⟩ := ih (i.forcedMs t)
        have hsent : (((Command.forceStats :: cs).map ServerEvent.command).filterMap (i.sent? t)) =
            (i.forcedMs t, .forced) :: (cs.map ServerEvent.command).filterMap (i.sent? t) := rfl
        rw [hsent]
        refine ⟨⟨nofun, hpasses⟩, ?_⟩
        rw [if_pos List.mem_cons_self]
        refine hafter.trans ?_
        split <;> rfl
      · have hnone : i.sent? t (.command c) = none := by
          cases c <;> first | rfl | exact absurd rfl hc
        have hmem : .forceStats ∈ c :: cs ↔ .forceStats ∈ cs := by
          rw [List.mem_cons, or_iff_right (Ne.symm hc)]
        rw [List.map_cons, List.filterMap_cons_none hnone]
        simp only [hmem]
        exact ih last

/-! ## Steps -/

namespace TimedServer

structure Kept (s : TimedServer) : Prop where
  timer : s.server.connected = true → s.server.lastStatsMs = UInt32.ofNat s.statsMs
  past : s.statsMs ≤ s.nowMs

end TimedServer

/-- What an event does to the timer. -/
structure Timely (s : TimedServer) (i : TimedOp) (next : TimedServer × List (ℕ × StatsCause)) :
    Prop where
  kept : next.1.Kept
  later : s.statsMs ≤ next.1.statsMs
  passes : statsMonitor.Passes s.statsMs next.2
  looked : s.server.checks (i.toOp s.nowMs) = true →
    (next.1.nowMs - next.1.statsMs) % 2 ^ 32 < 10000

theorem forcedMs_bounds (t : ℕ) (i : TimedOp) : t ≤ i.forcedMs t ∧ i.forcedMs t ≤ i.doneMs t := by
  cases i <;> simp only [TimedOp.forcedMs, TimedOp.doneMs] <;> omega

/-- Answers to the host, and behind them a look at the timer or none. -/
theorem Timely.of_step {s : TimedServer} {i : TimedOp} (hs : s.Kept) (cs : List Command)
    (stats : List ServerEvent) {server : SerialServer} {last' : ℕ}
    (hstep : serverStep s.server (i.toOp s.nowMs) = (server, cs.map .command ++ stats))
    (htimer : server.connected = true → server.lastStatsMs = UInt32.ofNat last')
    (hsends : let last := if .forceStats ∈ cs then i.forcedMs s.nowMs else s.statsMs
      stats = [] ∧ last' = last ∧ (s.server.checks (i.toOp s.nowMs) = true →
        (i.doneMs s.nowMs - last) % 2 ^ 32 < 10000) ∨
      stats = [.periodicStats] ∧ last' = i.doneMs s.nowMs ∧ last + 10000 ≤ i.doneMs s.nowMs) :
    Timely s i (cadenceStep s i) := by
  obtain ⟨hpasses, hafter⟩ := commands_sent s.nowMs s.statsMs i cs
  obtain ⟨hforced, hdone⟩ := forcedMs_bounds s.nowMs i
  have hpast := hs.past
  have hlast : s.statsMs ≤ (if .forceStats ∈ cs then i.forcedMs s.nowMs else s.statsMs) ∧
      (if .forceStats ∈ cs then i.forcedMs s.nowMs else s.statsMs) ≤ i.doneMs s.nowMs := by
    split <;> omega
  revert hsends hlast
  generalize (if .forceStats ∈ cs then i.forcedMs s.nowMs else s.statsMs) = last at hafter ⊢
  intro hsends hlast
  rw [cadenceStep, hstep]
  dsimp only
  rcases hsends with ⟨rfl, rfl, hlooked⟩ | ⟨rfl, rfl, hold⟩
  · rw [List.append_nil]
    refine ⟨⟨?_, ?_⟩, ?_, hpasses, ?_⟩ <;> dsimp only <;> rw [hafter]
    · exact htimer
    · exact hlast.2
    · exact hlast.1
    · exact hlooked
  · have hsent : [ServerEvent.periodicStats].filterMap (i.sent? s.nowMs) =
        [(i.doneMs s.nowMs, .periodic)] := rfl
    rw [List.filterMap_append, hsent]
    have hend : statsMonitor.after s.statsMs ((cs.map ServerEvent.command).filterMap
        (i.sent? s.nowMs) ++ [(i.doneMs s.nowMs, .periodic)]) = i.doneMs s.nowMs := by
      rw [Monitor.after_append]
      rfl
    refine ⟨⟨?_, ?_⟩, ?_, ?_, ?_⟩ <;> dsimp only <;> try rw [hend]
    · exact htimer
    · exact hlast.1.trans hlast.2
    · refine (Monitor.passes_append _ _ _ _).mpr ⟨hpasses, fun _ ↦ ?_, trivial⟩
      rw [hafter]
      exact hold
    · intro _
      rw [Nat.sub_self]
      decide

theorem cadenceStep_timely {s : TimedServer} (hs : s.Kept) (i : TimedOp) :
    Timely s i (cadenceStep s i) := by
  have hclosed : ∀ {i : TimedOp}, serverStep s.server (i.toOp s.nowMs) = (s.server, []) →
      s.server.checks (i.toOp s.nowMs) = false → Timely s i (cadenceStep s i) := by
    intro i hstep hnone
    refine .of_step hs [] [] hstep hs.timer (.inl ⟨rfl, rfl, fun hlooks ↦ ?_⟩)
    rw [hnone] at hlooks
    cases hlooks
  cases i with
  | close gap => exact .of_step hs [] [] rfl nofun (.inl ⟨rfl, rfl, nofun⟩)
  | accept gap =>
      cases hopen : s.server.isTcp && !s.server.connected with
      | true =>
          have hstep : serverStep s.server ((TimedOp.accept gap).toOp s.nowMs) =
              (acceptClient s.server (UInt32.ofNat (s.nowMs + gap)), [.greeting]) := if_pos hopen
          have hpast := hs.past
          rw [cadenceStep, hstep]
          refine ⟨⟨fun _ ↦ rfl, le_refl _⟩, ?_, ⟨nofun, trivial⟩, fun _ ↦ ?_⟩
          · exact hpast.trans (Nat.le_add_right _ _)
          · change (s.nowMs + gap - (s.nowMs + gap)) % 2 ^ 32 < 10000
            rw [Nat.sub_self]
            decide
      | false => exact hclosed (if_neg (ne_true_of_eq_false hopen)) hopen
  | empty gap =>
      cases hconn : s.server.connected with
      | false => exact hclosed (if_neg (ne_true_of_eq_false hconn)) hconn
      | true =>
          have hstep : serverStep s.server ((TimedOp.empty gap).toOp s.nowMs) =
              maybeEmitStats s.server (UInt32.ofNat (s.nowMs + gap)) := if_pos hconn
          obtain ⟨last', hlooked⟩ := maybeEmitStats_looked (hs.timer hconn)
            (hs.past.trans (Nat.le_add_right s.nowMs gap))
          refine .of_step hs [] _ hstep (fun _ ↦ hlooked.timer) ?_
          rcases hlooked.sends with ⟨hnone, hlast, hage⟩ | hsent
          · exact .inl ⟨hnone, hlast, fun _ ↦ hage⟩
          · exact .inr hsent
  | byte b gap force tick =>
      cases hconn : s.server.connected with
      | false =>
          refine hclosed (if_neg (ne_true_of_eq_false hconn)) ?_
          exact Bool.and_eq_false_iff.mpr (.inl hconn)
      | true =>
          let r : RxByte := {
            byte := b
            now := UInt32.ofNat (s.nowMs + gap)
            forceNow := UInt32.ofNat (s.nowMs + gap + force)
            tickNow := UInt32.ofNat (s.nowMs + gap + force + tick) }
          let cs := (receive s.server.toClockedParser r).2
          let last := if .forceStats ∈ cs then s.nowMs + gap + force else s.statsMs
          let server : SerialServer := { s.server with
            toClockedParser := (receive s.server.toClockedParser r).1
            lastStatsMs := if .forceStats ∈ cs then r.forceNow else s.server.lastStatsMs }
          have htimer : server.lastStatsMs = UInt32.ofNat last := by
            change (if _ then _ else _) = UInt32.ofNat (if _ then _ else _)
            split
            · rfl
            · exact hs.timer hconn
          have hlast : last ≤ s.nowMs + gap + force + tick := by
            have hpast := hs.past
            change (if .forceStats ∈ cs then s.nowMs + gap + force else s.statsMs) ≤ _
            split <;> omega
          have hstep : serverStep s.server ((TimedOp.byte b gap force tick).toOp s.nowMs) =
              feed s.server r := if_pos hconn
          by_cases hdrain : (idleResync s.server.toClockedParser r.now).parser.skipRemain > 0
          · have hfeed : feed s.server r = (server, cs.map .command ++ []) := by
              simp only [feed, if_pos hdrain]
              rfl
            refine .of_step hs cs _ (hstep.trans hfeed) (fun _ ↦ htimer) (.inl ⟨rfl, rfl, ?_⟩)
            intro hlooks
            have hzero := eq_of_beq (Bool.and_eq_true_iff.mp hlooks).2
            rw [hzero] at hdrain
            exact absurd hdrain (by decide)
          · have hfeed : feed s.server r = ((maybeEmitStats server r.tickNow).1,
                cs.map .command ++ (maybeEmitStats server r.tickNow).2) := by
              simp only [feed, if_neg hdrain]
              rfl
            obtain ⟨last', hlooked⟩ := maybeEmitStats_looked htimer hlast
            refine .of_step hs cs _ (hstep.trans hfeed) (fun _ ↦ hlooked.timer) ?_
            rcases hlooked.sends with ⟨hnone, hsame, hage⟩ | hsent
            · exact .inl ⟨hnone, hsame, fun _ ↦ hage⟩
            · exact .inr hsent

/-- A client that comes is told the counters. -/
theorem cadenceStep_greets {s : TimedServer} {i : TimedOp} (hclosed : s.server.connected = false)
    (hlooks : s.server.checks (i.toOp s.nowMs) = true) :
    (cadenceStep s i).1.statsMs = (cadenceStep s i).1.nowMs := by
  cases i with
  | accept gap =>
      have hstep : serverStep s.server ((TimedOp.accept gap).toOp s.nowMs) =
          (acceptClient s.server (UInt32.ofNat (s.nowMs + gap)), [.greeting]) := if_pos hlooks
      rw [cadenceStep, hstep]
      rfl
  | byte b gap force tick =>
      have hconn := (Bool.and_eq_true_iff.mp hlooks).1
      rw [hclosed] at hconn
      cases hconn
  | empty gap =>
      have hconn : s.server.connected = true := hlooks
      rw [hclosed] at hconn
      cases hconn
  | close gap => cases hlooks

theorem cadenceStep_closed {s : TimedServer} {i : TimedOp} (hclosed : s.server.connected = false)
    (hlooks : s.server.checks (i.toOp s.nowMs) = false) :
    (cadenceStep s i).1.server.connected = false := by
  have hshut : ¬s.server.connected = true := ne_true_of_eq_false hclosed
  cases i with
  | accept gap =>
      have hstep : serverStep s.server ((TimedOp.accept gap).toOp s.nowMs) = (s.server, []) :=
        if_neg (ne_true_of_eq_false hlooks)
      rw [cadenceStep, hstep]
      exact hclosed
  | byte b gap force tick =>
      have hstep : serverStep s.server ((TimedOp.byte b gap force tick).toOp s.nowMs) =
          (s.server, []) := if_neg hshut
      rw [cadenceStep, hstep]
      exact hclosed
  | empty gap =>
      have hstep : serverStep s.server ((TimedOp.empty gap).toOp s.nowMs) = (s.server, []) :=
        if_neg hshut
      rw [cadenceStep, hstep]
      exact hclosed
  | close gap => rfl

/-! ## Runs -/

theorem run_kept {s : TimedServer} (hs : s.Kept) (is : List TimedOp) :
    (run cadenceStep s is).1.Kept ∧ statsMonitor.Passes s.statsMs (run cadenceStep s is).2 := by
  induction is generalizing s with
  | nil => exact ⟨hs, trivial⟩
  | cons i is ih =>
      have hi := cadenceStep_timely hs i
      obtain ⟨hkept, hpasses⟩ := ih hi.kept
      exact ⟨hkept, (Monitor.passes_append _ _ _ _).mpr ⟨hi.passes, hpasses⟩⟩

/-- While a client is there, the timer is looked at again within 2^32 - 10000 ms. -/
def Prompt (s : TimedServer) (i : TimedOp) : Prop :=
  s.server.connected = true → s.server.checks (i.toOp s.nowMs) = true →
    i.doneMs s.nowMs + 10000 ≤ s.checkedMs + 2 ^ 32

instance (s : TimedServer) (i : TimedOp) : Decidable (Prompt s i) :=
  inferInstanceAs (Decidable (_ → _ → _))

/-- Behind a look at the timer, the last stats frame is less than 10 s old. -/
def Fresh (s : TimedServer) (i : TimedOp) : Prop :=
  s.server.checks (i.toOp s.nowMs) = true →
    (cadenceStep s i).1.nowMs < (cadenceStep s i).1.statsMs + 10000

/-- The last stats frame was fresh when the timer was last looked at. -/
structure TimedServer.Checked (s : TimedServer) : Prop extends s.Kept where
  fresh : s.server.connected = true → s.checkedMs < s.statsMs + 10000

theorem Checked.fresh_next {s : TimedServer} (hs : s.Checked) {i : TimedOp} (hi : Prompt s i) :
    Fresh s i := by
  intro hlooks
  have h := cadenceStep_timely hs.toKept i
  cases hconn : s.server.connected with
  | false =>
      rw [cadenceStep_greets hconn hlooks]
      omega
  | true =>
      have hage := h.looked hlooks
      have hprompt := hi hconn hlooks
      have hfresh := hs.fresh hconn
      have hlater := h.later
      have hnow : (cadenceStep s i).1.nowMs = i.doneMs s.nowMs := rfl
      have hpast := h.kept.past
      rw [Nat.mod_eq_of_lt (by omega)] at hage
      omega

theorem Checked.step {s : TimedServer} (hs : s.Checked) {i : TimedOp} (hi : Prompt s i) :
    (cadenceStep s i).1.Checked := by
  have h := cadenceStep_timely hs.toKept i
  refine ⟨h.kept, fun hconn ↦ ?_⟩
  cases hlooks : s.server.checks (i.toOp s.nowMs) with
  | true =>
      have hchecked : (cadenceStep s i).1.checkedMs = (cadenceStep s i).1.nowMs := if_pos hlooks
      rw [hchecked]
      exact Checked.fresh_next hs hi hlooks
  | false =>
      have hchecked : (cadenceStep s i).1.checkedMs = s.checkedMs :=
        if_neg (ne_true_of_eq_false hlooks)
      have hlater := h.later
      cases hopen : s.server.connected with
      | true =>
          have hfresh := hs.fresh hopen
          omega
      | false =>
          rw [cadenceStep_closed hopen hlooks] at hconn
          cases hconn

theorem TimedServer.boot_checked (tcp : Bool) (bootMs : ℕ) :
    (TimedServer.boot tcp bootMs).Checked := by
  refine ⟨⟨fun hconn ↦ ?_, le_refl _⟩, fun _ ↦ Nat.lt_add_of_pos_right (by decide)⟩
  cases tcp with
  | true => cases hconn
  | false => rfl

/-- In every run, on a clock that wraps around, with clients that come and go: a stats
frame that nobody has asked for is no sooner than 10 s behind the last one; and as long
as the timer is looked at every 49 days, the last one is less than 10 s old behind
every look. -/
theorem stats_cadence (tcp : Bool) (bootMs : ℕ) (is : List TimedOp) :
    statsMonitor.Passes bootMs (run cadenceStep (.boot tcp bootMs) is).2 ∧
      (Along cadenceStep Prompt (.boot tcp bootMs) is →
        Along cadenceStep Fresh (.boot tcp bootMs) is) := by
  have hboot := TimedServer.boot_checked tcp bootMs
  refine ⟨(run_kept hboot.toKept is).2, fun hprompt ↦ ?_⟩
  exact Along.of_invariant (fun _ _ hs hi ↦ Checked.step hs hi)
    (fun _ _ hs hi ↦ Checked.fresh_next hs hi) hboot hprompt

/-- The clock wraps around between the boot and an `S` of the host. -/
def wrapOps : List TimedOp := [.empty 4000, .byte tagS 2000 0 1, .empty 9998, .empty 5000]

theorem stats_cadence_wrap :
    (run cadenceStep (.boot false 4294962296) wrapOps).2 =
        [(4294968296, .forced), (4294983295, .periodic)] ∧
      Along cadenceStep Fresh (.boot false 4294962296) wrapOps := by
  have hprompt : Along cadenceStep Prompt (.boot false 4294962296) wrapOps := by decide +kernel
  exact ⟨by decide +kernel, (stats_cadence false 4294962296 wrapOps).2 hprompt⟩

end RadioService.Serial
