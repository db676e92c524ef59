import RadioService.ClockShift
import RadioService.Forgetting
import RadioService.Service

/-!
# The service on a shifted clock

On a millisecond clock that is ahead by a constant, modulo 2^32, the service does what it
does on the other: the same calls of the handlers, the same kills, the same scan results
and the same frames, but for the uptime in the stats.
-/

namespace RadioService.Serial

open Machine Stats Traced

/-! ## The server -/

def SerialServer.delayed (c : UInt32) (s : SerialServer) : SerialServer :=
  { s with lastArrivalMs := c + s.lastArrivalMs, lastStatsMs := c + s.lastStatsMs }

def ClockedParser.delayed (c : UInt32) (p : ClockedParser) : ClockedParser :=
  { p with lastArrivalMs := c + p.lastArrivalMs }

theorem idleResync_delayed (c : UInt32) (p : ClockedParser) (now : UInt32) :
    idleResync (p.delayed c) (c + now) = (idleResync p now).delayed c := by
  have hgap : resyncs (p.delayed c) (c + now) = resyncs p now := by
    rw [resyncs, resyncs, ClockedParser.delayed, add_sub_add_left_eq_sub]
  unfold idleResync
  rw [hgap]
  split <;> rfl

theorem receive_delayed (c : UInt32) (p : ClockedParser) (r : RxByte) :
    receive (p.delayed c) (r.delayed c) = ((receive p r).1.delayed c, (receive p r).2) := by
  unfold receive
  rw [RxByte.delayed, idleResync_delayed]
  rfl

theorem maybeEmitStats_delayed (c : UInt32) (s : SerialServer) (now : UInt32) :
    maybeEmitStats (s.delayed c) (c + now) =
      ((maybeEmitStats s now).1.delayed c, (maybeEmitStats s now).2) := by
  have hgap : c + now - (s.delayed c).lastStatsMs = now - s.lastStatsMs :=
    add_sub_add_left_eq_sub _ _ _
  unfold maybeEmitStats
  rw [hgap]
  split <;> rfl

theorem feed_delayed (c : UInt32) (s : SerialServer) (r : RxByte) :
    feed (s.delayed c) (r.delayed c) = ((feed s r).1.delayed c, (feed s r).2) := by
  let s' : SerialServer := { s with
    toClockedParser := (receive s.toClockedParser r).1
    lastStatsMs :=
      if .forceStats ∈ (receive s.toClockedParser r).2 then r.forceNow else s.lastStatsMs }
  have hcut : (idleResync (s.delayed c).toClockedParser (r.delayed c).now).parser.skipRemain =
      (idleResync s.toClockedParser r.now).parser.skipRemain :=
    congrArg (·.parser.skipRemain) (idleResync_delayed c s.toClockedParser r.now)
  have hreceive : receive (s.delayed c).toClockedParser (r.delayed c) =
      ((receive s.toClockedParser r).1.delayed c, (receive s.toClockedParser r).2) :=
    receive_delayed c s.toClockedParser r
  have hstats : (if .forceStats ∈ (receive s.toClockedParser r).2 then (r.delayed c).forceNow
      else (s.delayed c).lastStatsMs) = (s'.delayed c).lastStatsMs :=
    (apply_ite (c + ·) _ _ _).symm
  unfold feed
  dsimp only
  rw [hcut, hreceive]
  dsimp only
  rw [hstats]
  split
  · rfl
  · have htick := maybeEmitStats_delayed c s' r.tickNow
    exact congrArg (fun x : SerialServer × List ServerEvent ↦
      (x.1, (receive s.toClockedParser r).2.map ServerEvent.command ++ x.2)) htick

/-- The server compares its clock readings by their differences. -/
theorem serverStep_delayed (c : UInt32) (s : SerialServer) (op : ServerOp) :
    serverStep (s.delayed c) (op.delayed c) =
      ((serverStep s op).1.delayed c, (serverStep s op).2) := by
  cases op with
  | accept now =>
      simp only [ServerOp.delayed, serverStep]
      change (if (s.isTcp && !s.connected) = true then _ else _) = _
      split <;> rfl
  | byte r =>
      simp only [ServerOp.delayed, serverStep]
      change (if s.connected = true then _ else _) = _
      split
      · exact feed_delayed c s r
      · rfl
  | empty now =>
      simp only [ServerOp.delayed, serverStep]
      change (if s.connected = true then _ else _) = _
      split
      · exact maybeEmitStats_delayed c s now
      · rfl
  | close => rfl

/-! ## The service -/

def HandlerInput.delayed (c : UInt32) (io : HandlerInput) : HandlerInput :=
  { io with now := c + io.now }

/-- The service with the deadlines moved along, and the thermal timer anyhow. -/
def Service.retimed (c : UInt32) (check : UInt32 → UInt32) (s : Service) : Service :=
  { s with server := s.server.delayed c, worker := s.worker.retimed c check }

/-- The same event, but for the uptime in the stats, which is ahead by `c`. -/
inductive Ahead (c : UInt32) : ServiceEvent → ServiceEvent → Prop
  | same (e : ServiceEvent) : Ahead c e e
  | stats (st : Counters) (now killed : UInt32) :
      Ahead c (.write (serialize (statsFrame st now killed)))
        (.write (serialize (statsFrame st (c + now) killed)))

theorem perform_eq {α : Type} (s : Service) (m : Work α) :
    s.perform m =
      ({ s with worker := (m.run s.worker).state }, (m.run s.worker).events.flatMap called) := by
  rw [Service.perform, Outcome.events, List.flatMap_map]

/-- The second outcome is the first on the clock that is ahead by `c`. -/
def Later (c : UInt32) (check : UInt32 → UInt32) (x y : Service × List ServiceEvent) : Prop :=
  y.1 = x.1.retimed c check ∧ List.Forall₂ (Ahead c) x.2 y.2

namespace Later

variable {c : UInt32} {check : UInt32 → UInt32} {s s' : Service} {out out' : List ServiceEvent}

theorem refl (out : List ServiceEvent) : List.Forall₂ (Ahead c) out out :=
  List.forall₂_same.mpr fun e _ ↦ .same e

theorem same (s : Service) (out : List ServiceEvent) :
    Later c check (s, out) (s.retimed c check, out) :=
  ⟨rfl, refl out⟩

theorem append {more more' : List ServiceEvent} (h : Later c check (s, out) (s', out'))
    (hmore : List.Forall₂ (Ahead c) more more') :
    Later c check (s, out ++ more) (s', out' ++ more') :=
  ⟨h.1, List.rel_append h.2 hmore⟩

theorem perform {α : Type} {m m' : Work α} (h : Shifted c check m m') (s : Service) :
    Later c check (s.perform m) ((s.retimed c check).perform m') := by
  obtain ⟨-, hstate, hevents⟩ := h s.worker
  rw [perform_eq, perform_eq]
  change Later c check _ ({ s.retimed c check with
    worker := (m'.run (s.worker.retimed c check)).state },
      (m'.run (s.worker.retimed c check)).events.flatMap called)
  rw [hstate, hevents]
  exact same { s with worker := (m.run s.worker).state } _

theorem emitStats (s : Service) (io : HandlerInput) :
    List.Forall₂ (Ahead c) (s.emitStats io) ((s.retimed c check).emitStats (io.delayed c)) := by
  have hpieces : ∀ counters, writeStats counters =
      [tagStats :: lenBytes 68, serialize counters] := fun counters ↦ by
    simp [writeStats, writeFrame]
  rw [Service.emitStats, Service.emitStats, hpieces, hpieces]
  exact .cons (.same _) (.cons (.stats _ _ _) .nil)

theorem handle (s : Service) (io : HandlerInput) (cmd : Command) :
    Later c check (s.handle io cmd) ((s.retimed c check).handle (io.delayed c) cmd) := by
  have hsweep : ∀ p, Later c check (s.startSweep io p)
      ((s.retimed c check).startSweep (io.delayed c) p) := by
    intro p
    obtain ⟨hstate, hout⟩ := perform (Shifted.startScan p io.now io.scanFreqSt) s
    exact ⟨hstate, .cons (.same _) hout⟩
  cases cmd with
  | forceStats => exact ⟨rfl, emitStats s io⟩
  | handleConfig body len =>
      have hconfig : Untimed c check (applyConfig (parseConfig body).config io.config) :=
        Shifted.applyConfig _ _
      have hval : _ = ((applyConfig (parseConfig body).config (io.delayed c).config).run
          (s.retimed c check).worker).val := (hconfig s.worker).1
      unfold Service.handle Service.handleConfig
      dsimp only
      split
      · exact append (hsweep _) (refl _)
      · refine append (perform hconfig s) ?_
        rw [← hval]
        exact refl _
  | handleTx payload =>
      have htx : Untimed c check (enqueueTx ⟨s.calls, payload⟩) := Shifted.enqueueTx _
      have hval := (htx s.worker).1
      unfold Service.handle Service.handleTx
      dsimp only
      refine append (perform htx { s with calls := s.calls + 1 }) ?_
      change List.Forall₂ _ _ (.answer ⟨s.calls, payload⟩
        ((enqueueTx ⟨s.calls, payload⟩).run (s.worker.retimed c check)).val ::
        writes (if ((enqueueTx ⟨s.calls, payload⟩).run (s.worker.retimed c check)).val = .kBusy
          then writeError 0x04 (literal "tx queue full")
          else writeDiag 47 (UInt32.ofNat payload.length)))
      rw [← hval]
      exact refl _
  | handleScanQ count dwell freqs =>
      unfold Service.handle Service.handleScanQ
      dsimp only
      split
      · exact same s []
      · exact hsweep _
  | _ => exact same s _

theorem respond (s : Service) (io : HandlerInput) (es : List ServerEvent) :
    Later c check (run (respond io) s es)
      (run (Serial.respond (io.delayed c)) (s.retimed c check) es) := by
  induction es generalizing s with
  | nil => exact same s []
  | cons e es ih =>
      have hhead : Later c check (Serial.respond io s e)
          (Serial.respond (io.delayed c) (s.retimed c check) e) := by
        cases e with
        | command cmd => exact handle s io cmd
        | greeting => exact ⟨rfl, List.rel_append (refl _) (emitStats s io)⟩
        | periodicStats => exact ⟨rfl, emitStats s io⟩
      rw [run_cons, run_cons, hhead.1]
      exact ⟨(ih _).1, List.rel_append hhead.2 (ih _).2⟩

end Later

/-! ## Runs -/

/-- A step of the service that is told whether the thermal guard is due. -/
inductive TimedStep where
  | serve (op : ServerOp) (io : HandlerInput)
  | poll (due : Bool) (io : RadioService.PollInput)

namespace TimedStep

def step : TimedStep → ServiceStep
  | serve op io => .serve op io
  | poll _ io => .poll io

def delayed (c : UInt32) : TimedStep → TimedStep
  | serve op io => serve (op.delayed c) (io.delayed c)
  | poll due io => poll due (io.delayed c)

end TimedStep

/-- What the server decides, and what it brings about. -/
inductive TimedEvent where
  | call (e : ServerEvent)
  | event (e : ServiceEvent)

def TimedEvent.event? : TimedEvent → Option ServiceEvent
  | call _ => none
  | event e => some e

/-- The same but for the uptime in the stats. -/
inductive TimedEvent.Ahead (c : UInt32) : TimedEvent → TimedEvent → Prop
  | call (e : ServerEvent) : Ahead c (.call e) (.call e)
  | event {e e' : ServiceEvent} (h : Serial.Ahead c e e') : Ahead c (.event e) (.event e')

def timedStep : Step Service TimedStep TimedEvent
  | s, .serve op io =>
    if s.atWorker then
      (s, [])
    else
      let (server, es) := serverStep s.server op
      let (s, out) := run (respond io) { s with server := server, atWorker := op.returns } es
      (s, es.map .call ++ out.map .event)
  | s, .poll due io =>
    if s.atWorker then
      let (s, out) := { s with atWorker := false }.perform (timedPoll due io)
      (s, out.map .event)
    else
      (s, [])

theorem ServerOp.returns_delayed (c : UInt32) (op : ServerOp) :
    (op.delayed c).returns = op.returns := by
  cases op <;> rfl

theorem Later.events {c : UInt32} {check : UInt32 → UInt32} {x y : Service × List ServiceEvent}
    (h : Later c check x y) :
    List.Forall₂ (TimedEvent.Ahead c) (x.2.map .event) (y.2.map .event) :=
  List.rel_map (fun _ _ ↦ .event) h.2

theorem timedStep_retimed (c : UInt32) (check : UInt32 → UInt32) (s : Service) (i : TimedStep) :
    (timedStep (s.retimed c check) (i.delayed c)).1 = (timedStep s i).1.retimed c check ∧
      List.Forall₂ (TimedEvent.Ahead c) (timedStep s i).2
        (timedStep (s.retimed c check) (i.delayed c)).2 := by
  have hturn : (s.retimed c check).atWorker = s.atWorker := rfl
  cases i with
  | serve op io =>
      have hserver : serverStep (s.retimed c check).server (op.delayed c) =
          ((serverStep s.server op).1.delayed c, (serverStep s.server op).2) :=
        serverStep_delayed c s.server op
      have hcalls : List.Forall₂ (TimedEvent.Ahead c)
          ((serverStep s.server op).2.map .call) ((serverStep s.server op).2.map .call) :=
        List.forall₂_same.mpr fun e he ↦ by
          obtain ⟨e, -, rfl⟩ := List.mem_map.mp he
          exact .call e
      have hlater : Later c check
          (run (respond io) { s with server := (serverStep s.server op).1, atWorker := op.returns }
            (serverStep s.server op).2) _ :=
        Later.respond _ io _
      simp only [TimedStep.delayed, timedStep, hturn, hserver, ServerOp.returns_delayed]
      split
      · exact ⟨rfl, .nil⟩
      · exact ⟨hlater.1, List.rel_append hcalls hlater.events⟩
  | poll due io =>
      have hlater := Later.perform (Shifted.timedPoll c check due io) { s with atWorker := false }
      simp only [TimedStep.delayed, timedStep, hturn]
      split
      · exact ⟨hlater.1, hlater.events⟩
      · exact ⟨rfl, .nil⟩

/-- A run on a clock that is ahead by `c`, with the timers moved along: the same calls, kills,
scan results and frames, but for the uptime. -/
theorem timers_wrap_safe (c : UInt32) (s : Service) (is : List TimedStep) :
    let t := run timedStep s is
    let t' := run timedStep (s.retimed c id) (is.map (·.delayed c))
    t'.1 = t.1.retimed c id ∧
      t'.1.server.parserFramesKilled = t.1.server.parserFramesKilled ∧
      List.Forall₂ (TimedEvent.Ahead c) t.2 t'.2 := by
  have hrun : (run timedStep (s.retimed c id) (is.map (·.delayed c))).1 =
        (run timedStep s is).1.retimed c id ∧
      List.Forall₂ (TimedEvent.Ahead c) (run timedStep s is).2
        (run timedStep (s.retimed c id) (is.map (·.delayed c))).2 := by
    induction is generalizing s with
    | nil => exact ⟨rfl, .nil⟩
    | cons i is ih =>
        obtain ⟨hstate, hout⟩ := timedStep_retimed c id s i
        rw [List.map_cons, run_cons, run_cons, hstate]
        exact ⟨(ih _).1, List.rel_append hout (ih _).2⟩
  exact ⟨hrun.1, congrArg (·.server.parserFramesKilled) hrun.1, hrun.2⟩

/-! ## The service as it is -/

theorem Later.eq_of_zero {check : UInt32 → UInt32} {x y : Service × List ServiceEvent}
    (h : Later 0 check x y) : y = (x.1.retimed 0 check, x.2) := by
  refine Prod.ext h.1 (List.forall₂_eq_eq_eq ▸ h.2.imp fun e e' he ↦ ?_ : x.2 = y.2).symm
  cases he with
  | same => rfl
  | stats => rw [UInt32.zero_add]

theorem SerialServer.delayed_zero (s : SerialServer) : s.delayed 0 = s := by
  simp [SerialServer.delayed]

theorem HandlerInput.delayed_zero (io : HandlerInput) : io.delayed 0 = io := by
  simp [HandlerInput.delayed]

theorem events_timed (es : List ServerEvent) (out : List ServiceEvent) :
    (es.map TimedEvent.call ++ out.map TimedEvent.event).filterMap TimedEvent.event? = out := by
  simp [List.filterMap_map, Function.comp_def, TimedEvent.event?]

theorem serviceStep_timed (s : Service) (check : UInt32 → UInt32) (i : ServiceStep) :
    ∃ j check', j.step = i ∧
      serviceStep (s.retimed 0 check) i =
        ((timedStep s j).1.retimed 0 check', (timedStep s j).2.filterMap TimedEvent.event?) := by
  have hturn : (s.retimed 0 check).atWorker = s.atWorker := rfl
  cases i with
  | serve op io =>
      refine ⟨.serve op io, check, rfl, ?_⟩
      have hserver : (s.retimed 0 check).server = s.server := s.server.delayed_zero
      have hsame : Later 0 check
          (run (respond io) { s with server := (serverStep s.server op).1, atWorker := op.returns }
            (serverStep s.server op).2) _ :=
        Later.respond _ io _
      have hlater := hsame.eq_of_zero
      rw [HandlerInput.delayed_zero] at hlater
      have hmoved : Service.retimed 0 check
          { s with server := (serverStep s.server op).1, atWorker := op.returns } =
          { s.retimed 0 check with
            server := (serverStep s.server op).1, atWorker := op.returns } :=
        congrArg (fun server : SerialServer ↦ ({ s.retimed 0 check with
          server := server, atWorker := op.returns } : Service)) (SerialServer.delayed_zero _)
      rw [hmoved] at hlater
      simp only [serviceStep, timedStep, hturn, hserver]
      split
      · rfl
      · rw [events_timed, ← hlater]
  | poll io =>
      cases hat : s.atWorker with
      | false =>
          refine ⟨.poll false io, check, rfl, ?_⟩
          simp [serviceStep, timedStep, hturn, hat]
      | true =>
          obtain ⟨check', hstate, hevents⟩ := pollOnce_timed io s.worker check
          refine ⟨.poll (thermalDue (s.worker.retimed 0 check).toSettings io.nowMs) io, check',
            rfl, ?_⟩
          have hperform := perform_eq { s.retimed 0 check with atWorker := false }
            (RadioService.pollOnce io)
          rw [show ({ s.retimed 0 check with atWorker := false } : Service).worker =
            s.worker.retimed 0 check from rfl, hstate, hevents] at hperform
          have hevent := events_timed []
            (((timedPoll (thermalDue (s.worker.retimed 0 check).toSettings io.nowMs) io).run
              s.worker).events.flatMap called)
          rw [List.map_nil, List.nil_append] at hevent
          simp only [serviceStep, timedStep, hturn, hat, if_pos, hperform, perform_eq, hevent]
          rfl

/-- Every run of the service is a timed run, with the decisions of its thermal guard. -/
theorem service_timed (s : Service) (steps : List ServiceStep) :
    ∃ is check, is.map TimedStep.step = steps ∧
      (run serviceStep s steps).1 = (run timedStep s is).1.retimed 0 check ∧
      (run serviceStep s steps).2 = (run timedStep s is).2.filterMap TimedEvent.event? := by
  have hruns : ∀ check, ∃ is check', is.map TimedStep.step = steps ∧
      run serviceStep (s.retimed 0 check) steps = ((run timedStep s is).1.retimed 0 check',
        (run timedStep s is).2.filterMap TimedEvent.event?) := by
    induction steps generalizing s with
    | nil => exact fun check ↦ ⟨[], check, rfl, rfl⟩
    | cons i steps ih =>
        intro check
        obtain ⟨j, check₁, hj, hstep⟩ := serviceStep_timed s check i
        obtain ⟨is, check₂, his, hrun⟩ := ih (timedStep s j).1 check₁
        refine ⟨j :: is, check₂, by rw [List.map_cons, hj, his], ?_⟩
        rw [run_cons, run_cons, hstep, hrun, List.filterMap_append]
  obtain ⟨is, check, his, hrun⟩ := hruns id
  have hsame : s.retimed 0 id = s := by
    simp [Service.retimed, SerialServer.delayed_zero, RadioWorker.retimed]
  rw [hsame] at hrun
  exact ⟨is, check, his, congrArg Prod.fst hrun, congrArg Prod.snd hrun⟩

end RadioService.Serial
