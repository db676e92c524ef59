import RadioService.SimBursts
import RadioService.SimDevice

/-!
# The threads of the simulator

`SimDevice` runs its parser, its transmit queue, its generator of received bursts and
its sweeps in threads of their own.  They share the queue, which has a lock, and the
mode and the last burst identifier, which have none.  A turn takes one thread from one
access to what is shared, or one write, to the next; the turns come in any order.
-/

namespace RadioService.Serial

open Machine SimDevice

/-! ## Threads -/

/-- `send_burst`, between two accesses. -/
inductive BurstStage where
  | load
  | store (id : ℕ)
  | pack (idx : ℕ)
  | send (idx : ℕ) (p : SimPacket)
deriving DecidableEq

structure SimBurst where
  payload : List UInt8
  stage : BurstStage := .load
deriving DecidableEq

inductive TxStage where
  | poll
  | airing (payload : List UInt8)
  | echo (b : SimBurst)
  /-- A `struct.error` ends a thread. -/
  | dead
deriving DecidableEq

inductive GeneratorStage where
  | check
  | burst (b : SimBurst)
  | dead
deriving DecidableEq

structure SimSweep where
  startHz : ℕ
  stepHz : ℕ
  count : ℕ
deriving DecidableEq

/-- `said` of the four events of a channel have been written. -/
inductive SweepStage where
  | idle
  | starting (p : SimSweep)
  | channel (p : SimSweep) (i said : ℕ)
  | ending
  | closing
  | dead
deriving DecidableEq

/-- What the parser's thread has still to write. -/
inductive SimSay where
  | bare
  | ready
  | stats
  | error (code : UInt8) (msg : String)
  | diag (event val : ℕ)
deriving DecidableEq

structure SimRig where
  parser : SimParser := {}
  pending : List SimSay := []
  burstId : ℕ := 1
  txQ : List (List UInt8) := []
  mode : SimMode := .rx
  /-- `rx_burst_every`. -/
  every : ℕ := 15
  tx : TxStage := .poll
  generator : GeneratorStage := .check
  /-- `sweep_active` is `False` when idle. -/
  sweep : SweepStage := .idle
deriving DecidableEq

inductive SimEvent where
  | read (p : SimPoll)
  | accepted (payload : List UInt8)
  /-- `E` 0x04 is written under the lock. -/
  | refused (payload : List UInt8)
  | said (s : SimSay)
  /-- The `G` behind a frame. -/
  | terminal (payload : List UInt8)
  /-- The generator makes a burst of its payload. -/
  | generated (payload : List UInt8)
  | packet (p : SimPacket)
  | swept (event val : ℕ)
deriving DecidableEq

/-! ## Bursts -/

inductive BurstNext where
  | on (b : SimBurst)
  | done
  | dead
deriving DecidableEq

namespace SimBurst

def total (b : SimBurst) : ℕ := (b.payload.length + CHUNK - 1) / CHUNK

def packet (id : ℕ) (b : SimBurst) (idx : ℕ) : Option SimPacket := do
  let pkt ← airPacket id b.payload b.total idx
  return SimPacket.mk pkt (← SimDevice.rxPacket pkt (-40))

/-- A packet whose header is packed is sent next. -/
def packed (id : ℕ) (b : SimBurst) (idx : ℕ) : Option SimPacket → ℕ × BurstNext × List SimEvent
  | none => (id, .dead, [])
  | some p => (id, .on { b with stage := .send idx p }, [])

/-- One access of `send_burst`, where the identifier that is shared is `id`. -/
def turn (id : ℕ) (b : SimBurst) : ℕ × BurstNext × List SimEvent :=
  match b.stage with
  | .load => (id, .on { b with stage := .store id }, [])
  | .store old =>
    (old % 65535 + 1, if b.total = 0 then .done else .on { b with stage := .pack 0 }, [])
  | .pack idx => b.packed id idx (b.packet id idx)
  | .send idx p =>
    (id, if idx + 1 < b.total then .on { b with stage := .pack (idx + 1) } else .done,
      [.packet p])

end SimBurst

/-! ## Turns -/

/-- Four bytes of a consensus message, and zeros. -/
def generatorPayload : List UInt8 := [0x53, 0x4C, 0x52, 0x46] ++ List.replicate (300 - 4) 0

namespace SimSweep

def freq (p : SimSweep) (i : ℕ) : ℕ := p.startHz + i * (if p.stepHz = 0 then 500000 else p.stepHz)

/-- The values of the events 50 to 53 of a channel. -/
def val (p : SimSweep) (i : ℕ) : ℕ → ℕ
  | 0 => p.freq i
  | 1 | 2 => if p.freq i = 916500000 then 40 else 0
  | _ => 128 - 35

end SimSweep

namespace SimRig

def runFakeSweep (r : SimRig) (p : SimSweep) : SimRig :=
  if r.sweep = .idle then { r with sweep := .starting p } else r

def handleConfig (r : SimRig) (body : List UInt8) : SimRig :=
  if unpackU32 (body.take 4) = 0xFFFFFFFF then
    let count := if body.getD 8 0 = 0 then 16 else (body.getD 8 0).toNat
    r.runFakeSweep
      ⟨(unpackU32 ((body.drop 10).take 4)).toNat, (unpackU32 ((body.drop 4).take 4)).toNat,
        min count 16⟩
  else
    r

/-- A call of the parser, up to its writes; a frame meets the queue under the lock. -/
def handleCall : Step SimRig SimCall SimEvent
  | r, .statsFrame => ({ r with pending := r.pending ++ [.stats] }, [])
  | r, .reset => ({ r with pending := r.pending ++ [.bare, .ready] }, [])
  | r, .ready => ({ r with pending := r.pending ++ [.ready] }, [])
  | r, .error code msg => ({ r with pending := r.pending ++ [.error code msg] }, [])
  | r, .handleConfig body =>
    let r := r.handleConfig body
    ({ r with pending := r.pending ++ [.ready] }, [])
  | r, .handleTx payload =>
    if r.txQ.length ≥ 2 then
      (r, [.refused payload])
    else
      ({ r with txQ := r.txQ ++ [payload], pending := r.pending ++ [.diag 47 payload.length] },
        [.accepted payload])
  | r, .runFakeSweep freqs count _ =>
    (r.runFakeSweep ⟨(freqs.headD 0).toNat, 0, count.toNat⟩, [])

def txTurn (r : SimRig) : SimRig × List SimEvent :=
  match r.tx with
  | .poll =>
    match r.txQ with
    | [] => (r, [])
    | payload :: rest => ({ r with txQ := rest, tx := .airing payload }, [])
  | .airing payload => ({ r with tx := .echo { payload := payload } }, [.terminal payload])
  | .echo b =>
    let (id, next, es) := b.turn r.burstId
    let tx := match next with
      | .on b => .echo b
      | .done => .poll
      | .dead => .dead
    ({ r with burstId := id, tx := tx }, es)
  | .dead => (r, [])

def generatorTurn (r : SimRig) : SimRig × List SimEvent :=
  match r.generator with
  | .check =>
    if r.every > 0 ∧ r.mode = .rx then
      ({ r with generator := .burst { payload := generatorPayload } },
        [.generated generatorPayload])
    else
      (r, [])
  | .burst b =>
    let (id, next, es) := b.turn r.burstId
    let generator := match next with
      | .on b => .burst b
      | .done => .check
      | .dead => .dead
    ({ r with burstId := id, generator := generator }, es)
  | .dead => (r, [])

def sweepTurn (r : SimRig) : SimRig × List SimEvent :=
  match r.sweep with
  | .starting p =>
    ({ r with mode := .scan, sweep := if p.count = 0 then .ending else .channel p 0 0 }, [])
  | .channel p i said =>
    match diag (50 + said) (p.val i said) with
    | none => ({ r with sweep := .dead }, [])
    | some _ =>
      ({ r with sweep :=
          if said < 3 then .channel p i (said + 1)
          else if i + 1 < p.count then .channel p (i + 1) 0
          else .ending },
        [.swept (50 + said) (p.val i said)])
  | .ending => ({ r with mode := .rx, sweep := .closing }, [])
  | .closing => ({ r with sweep := .idle }, [])
  | .idle | .dead => (r, [])

end SimRig

inductive SimTurn where
  | poll (p : SimPoll)
  | say
  | tx
  | generator
  | sweep
deriving DecidableEq

/-- The parser reads no byte before it has written all that it has to. -/
def simTurn : Step SimRig SimTurn SimEvent
  | r, .poll p =>
    if r.pending = [] then
      let (parser, calls) := r.parser.parse p
      let (r, es) := run SimRig.handleCall { r with parser := parser } calls
      (r, .read p :: es)
    else
      (r, [])
  | r, .say =>
    match r.pending with
    | [] => (r, [])
    | s :: rest => ({ r with pending := rest }, [.said s])
  | r, .tx => r.txTurn
  | r, .generator => r.generatorTurn
  | r, .sweep => r.sweepTurn

/-! ## Frames and their answers -/

namespace SimEvent

def read? : SimEvent → Option SimPoll
  | read p => some p
  | _ => none

/-- A frame that meets the queue, and whether it is taken. -/
def offered? : SimEvent → Option (List UInt8 × Bool)
  | accepted payload => some (payload, true)
  | refused payload => some (payload, false)
  | _ => none

def accepted? : SimEvent → Option (List UInt8)
  | accepted payload => some payload
  | _ => none

def terminal? : SimEvent → Option (List UInt8)
  | terminal payload => some payload
  | _ => none

end SimEvent

def SimCall.tx? : SimCall → Option (List UInt8)
  | handleTx payload => some payload
  | _ => none

/-- The frame that is on the air. -/
def TxStage.inFlight : TxStage → List (List UInt8)
  | airing payload => [payload]
  | _ => []

/-- Frames taken and not answered yet. -/
def SimRig.owed (r : SimRig) : List (List UInt8) := r.tx.inFlight ++ r.txQ

/-- What a part of a run does to the frames. -/
structure Handles (r : SimRig) (next : SimRig × List SimEvent) : Prop where
  owed : r.owed ++ next.2.filterMap SimEvent.accepted? =
    next.2.filterMap SimEvent.terminal? ++ next.1.owed
  room : r.txQ.length ≤ 2 → next.1.txQ.length ≤ 2
  parser : next.1.parser = (run SimParser.parse r.parser (next.2.filterMap SimEvent.read?)).1
  offered : (next.2.filterMap SimEvent.offered?).map Prod.fst =
    (run SimParser.parse r.parser (next.2.filterMap SimEvent.read?)).2.filterMap SimCall.tx?

namespace Handles

variable {r r' r'' : SimRig} {es es' : List SimEvent}

/-- Nothing that has to do with frames. -/
theorem idle (howed : r'.owed = r.owed) (hq : r'.txQ.length ≤ r.txQ.length)
    (hparser : r'.parser = r.parser)
    (hes : ∀ e ∈ es, e.read? = none ∧ e.offered? = none ∧ e.accepted? = none ∧
      e.terminal? = none) : Handles r (r', es) := by
  have hnone : ∀ {α : Type} (f : SimEvent → Option α), (∀ e ∈ es, f e = none) →
      es.filterMap f = [] := fun f hf ↦ List.filterMap_eq_nil_iff.mpr hf
  have hread := hnone _ fun e he ↦ (hes e he).1
  have hoffered := hnone _ fun e he ↦ (hes e he).2.1
  have haccepted := hnone _ fun e he ↦ (hes e he).2.2.1
  have hterminal := hnone _ fun e he ↦ (hes e he).2.2.2
  refine ⟨?_, hq.trans, ?_, ?_⟩
  · rw [haccepted, hterminal, List.append_nil, howed]
    rfl
  · rw [hread]
    exact hparser
  · rw [hread, hoffered]
    rfl

theorem trans (h : Handles r (r', es)) (h' : Handles r' (r'', es')) :
    Handles r (r'', es ++ es') := by
  refine ⟨?_, fun hq ↦ h'.room (h.room hq), ?_, ?_⟩
  · rw [List.filterMap_append, List.filterMap_append, ← List.append_assoc, h.owed,
      List.append_assoc, h'.owed, List.append_assoc]
  · rw [List.filterMap_append, run_append, h'.parser, h.parser]
  · rw [List.filterMap_append, List.filterMap_append, List.map_append, run_append,
      List.filterMap_append, h.offered, h'.offered, h.parser]

end Handles

/-- What the calls of the parser do to the frames. -/
structure Takes (r : SimRig) (calls : List SimCall) (next : SimRig × List SimEvent) : Prop where
  owed : next.1.owed = r.owed ++ next.2.filterMap SimEvent.accepted?
  terminal : next.2.filterMap SimEvent.terminal? = []
  read : next.2.filterMap SimEvent.read? = []
  room : r.txQ.length ≤ 2 → next.1.txQ.length ≤ 2
  parser : next.1.parser = r.parser
  offered : (next.2.filterMap SimEvent.offered?).map Prod.fst = calls.filterMap SimCall.tx?

theorem runFakeSweep_cases (r : SimRig) (p : SimSweep) :
    ∃ sweep, r.runFakeSweep p = { r with sweep := sweep } := by
  unfold SimRig.runFakeSweep
  split
  · exact ⟨_, rfl⟩
  · exact ⟨r.sweep, rfl⟩

theorem handleConfig_cases (r : SimRig) (body : List UInt8) :
    ∃ sweep, r.handleConfig body = { r with sweep := sweep } := by
  unfold SimRig.handleConfig
  split
  · exact runFakeSweep_cases r _
  · exact ⟨r.sweep, rfl⟩

theorem handleCall_takes (r : SimRig) (c : SimCall) : Takes r [c] (r.handleCall c) := by
  have hsilent : ∀ pending sweep, c.tx? = none →
      Takes r [c] ({ r with pending := pending, sweep := sweep }, []) := by
    intro pending sweep hc
    refine ⟨(List.append_nil _).symm, rfl, rfl, id, rfl, ?_⟩
    rw [List.filterMap_cons_none hc]
    rfl
  cases c with
  | statsFrame | reset | ready | error => exact hsilent _ r.sweep rfl
  | handleConfig body =>
      obtain ⟨sweep, hsweep⟩ := handleConfig_cases r body
      change Takes r _ ({ r.handleConfig body with pending := _ }, [])
      rw [hsweep]
      exact hsilent _ sweep rfl
  | runFakeSweep freqs count dwell =>
      obtain ⟨sweep, hsweep⟩ := runFakeSweep_cases r ⟨(freqs.headD 0).toNat, 0, count.toNat⟩
      change Takes r _ (r.runFakeSweep _, [])
      rw [hsweep]
      exact hsilent r.pending sweep rfl
  | handleTx payload =>
      rw [SimRig.handleCall]
      split
      · exact ⟨(List.append_nil _).symm, rfl, rfl, id, rfl, rfl⟩
      next hroom =>
        refine ⟨(List.append_assoc _ _ _).symm, rfl, rfl, fun _ ↦ ?_, rfl, rfl⟩
        rw [List.length_append, List.length_singleton]
        omega

theorem run_handleCall_takes (r : SimRig) (calls : List SimCall) :
    Takes r calls (run SimRig.handleCall r calls) := by
  induction calls generalizing r with
  | nil => exact ⟨(List.append_nil _).symm, rfl, rfl, id, rfl, rfl⟩
  | cons c calls ih =>
      have hc := handleCall_takes r c
      have hrest := ih (r.handleCall c).1
      rw [run_cons]
      refine ⟨?_, ?_, ?_, fun hq ↦ hrest.room (hc.room hq), hrest.parser.trans hc.parser, ?_⟩
      · rw [List.filterMap_append, ← List.append_assoc, ← hc.owed]
        exact hrest.owed
      · rw [List.filterMap_append, hc.terminal, hrest.terminal]
        rfl
      · rw [List.filterMap_append, hc.read, hrest.read]
        rfl
      · rw [List.filterMap_append, List.map_append, hc.offered, hrest.offered,
          ← List.filterMap_append]
        rfl

theorem packed_silent (id : ℕ) (b : SimBurst) (idx : ℕ) (next : Option SimPacket) :
    (b.packed id idx next).2.2 = [] := by
  cases next <;> rfl

theorem turn_pack (id : ℕ) (payload : List UInt8) (idx : ℕ) :
    SimBurst.turn id ⟨payload, .pack idx⟩ = SimBurst.packed id ⟨payload, .pack idx⟩ idx
      (SimBurst.packet id ⟨payload, .pack idx⟩ idx) := rfl

theorem turn_packets (id : ℕ) (b : SimBurst) : ∀ e ∈ (b.turn id).2.2, ∃ p, e = .packet p := by
  obtain ⟨payload, stage⟩ := b
  intro e he
  cases stage with
  | load => cases he
  | store old => cases he
  | pack idx =>
      rw [turn_pack, packed_silent] at he
      cases he
  | send idx p => exact ⟨p, List.mem_singleton.mp he⟩

/-! ## Turns -/

theorem txTurn_handles (r : SimRig) : Handles r r.txTurn := by
  unfold SimRig.txTurn
  split
  next htx =>
    split
    · exact .idle rfl (le_refl _) rfl nofun
    next payload rest hq =>
      refine .idle ?_ ?_ rfl nofun
      · rw [SimRig.owed, SimRig.owed, htx, hq]
        rfl
      · rw [hq]
        exact Nat.le_succ _
  next payload htx =>
    refine ⟨?_, id, rfl, rfl⟩
    rw [SimRig.owed, SimRig.owed, htx]
    exact List.append_nil _
  next b htx =>
    have hpackets := turn_packets r.burstId b
    refine .idle ?_ (le_refl _) rfl fun e he ↦ ?_
    · rw [SimRig.owed, SimRig.owed, htx]
      dsimp only
      split <;> rfl
    · obtain ⟨p, rfl⟩ := hpackets e he
      exact ⟨rfl, rfl, rfl, rfl⟩
  · exact .idle rfl (le_refl _) rfl nofun

theorem generatorTurn_handles (r : SimRig) : Handles r r.generatorTurn := by
  unfold SimRig.generatorTurn
  generalize generatorPayload = payload
  split
  · split
    · refine .idle rfl (le_refl _) rfl fun e he ↦ ?_
      rw [List.mem_singleton.mp he]
      exact ⟨rfl, rfl, rfl, rfl⟩
    · exact .idle rfl (le_refl _) rfl nofun
  next b _ =>
    refine .idle rfl (le_refl _) rfl fun e he ↦ ?_
    obtain ⟨p, rfl⟩ := turn_packets r.burstId b e he
    exact ⟨rfl, rfl, rfl, rfl⟩
  · exact .idle rfl (le_refl _) rfl nofun

theorem sweepTurn_handles (r : SimRig) : Handles r r.sweepTurn := by
  unfold SimRig.sweepTurn
  split
  · exact .idle rfl (le_refl _) rfl nofun
  · split
    · exact .idle rfl (le_refl _) rfl nofun
    · refine .idle rfl (le_refl _) rfl fun e he ↦ ?_
      rw [List.mem_singleton.mp he]
      exact ⟨rfl, rfl, rfl, rfl⟩
  all_goals exact .idle rfl (le_refl _) rfl nofun

theorem simTurn_handles (r : SimRig) (i : SimTurn) : Handles r (simTurn r i) := by
  cases i with
  | poll p =>
      obtain ⟨d, calls, hparse⟩ : ∃ d calls, r.parser.parse p = (d, calls) := ⟨_, _, rfl⟩
      have hcall : run SimParser.parse r.parser [p] = (d, calls) := by
        rw [run_cons, run_nil, List.append_nil, hparse]
      rw [simTurn]
      split
      · rw [hparse]
        have htakes := run_handleCall_takes { r with parser := d } calls
        have hread : ∀ es : List SimEvent, es.filterMap SimEvent.read? = [] →
            (SimEvent.read p :: es).filterMap SimEvent.read? = [p] :=
          fun es hes ↦ congrArg (p :: ·) hes
        refine ⟨?_, htakes.room, ?_, ?_⟩
        · dsimp only
          rw [htakes.owed]
          exact (congrArg (· ++ _) htakes.terminal).symm
        · dsimp only
          rw [hread _ htakes.read, hcall]
          exact htakes.parser
        · dsimp only
          rw [hread _ htakes.read, hcall]
          exact htakes.offered
      · exact .idle rfl (le_refl _) rfl nofun
  | say =>
      rw [simTurn]
      split
      · exact .idle rfl (le_refl _) rfl nofun
      · refine .idle rfl (le_refl _) rfl fun e he ↦ ?_
        rw [List.mem_singleton.mp he]
        exact ⟨rfl, rfl, rfl, rfl⟩
  | tx => exact txTurn_handles r
  | generator => exact generatorTurn_handles r
  | sweep => exact sweepTurn_handles r

theorem run_simTurn_handles (r : SimRig) (turns : List SimTurn) :
    Handles r (run simTurn r turns) := by
  induction turns generalizing r with
  | nil => exact .idle rfl (le_refl _) rfl nofun
  | cons i turns ih => exact (simTurn_handles r i).trans (ih _)

/-! ## Refusals -/

/-- A byte calls for one thing at most. -/
theorem length_switch_le (d : SimParser) (b : UInt8) : (d.switch b).2.length ≤ 1 := by
  unfold SimParser.switch
  cases d.state with
  | tag =>
      change (d.onTag b).2.length ≤ 1
      unfold SimParser.onTag
      dsimp only
      repeat' split
      all_goals simp
  | lenHi =>
      change (d.onLenHi b).2.length ≤ 1
      unfold SimParser.onLenHi
      dsimp only
      repeat' split
      all_goals simp
  | txMagic | lenLo | scanCount => exact Nat.zero_le _
  | setWindow =>
      change (d.onSetWindow b).2.length ≤ 1
      unfold SimParser.onSetWindow
      dsimp only
      split <;> simp
  | config =>
      change (d.onConfig b).2.length ≤ 1
      unfold SimParser.onConfig
      dsimp only
      split <;> simp
  | payload =>
      change (d.onPayload b).2.length ≤ 1
      unfold SimParser.onPayload
      dsimp only
      split <;> simp
  | scanBody =>
      change (d.onScanBody b).2.length ≤ 1
      unfold SimParser.onScanBody
      dsimp only
      split <;> simp

theorem length_parse_le (d : SimParser) (p : SimPoll) : (d.parse p).2.length ≤ 1 := by
  unfold SimParser.parse
  dsimp only
  split
  · exact Nat.zero_le _
  · exact Nat.zero_le _
  · exact length_switch_le _ _

/-- A frame is refused only if the queue is full. -/
def Refuses (r : SimRig) (i : SimTurn) : Prop :=
  ∀ payload, .refused payload ∈ (simTurn r i).2 → 2 ≤ r.txQ.length

theorem handleCall_refuses {r : SimRig} {c : SimCall} {payload : List UInt8}
    (h : .refused payload ∈ (r.handleCall c).2) : 2 ≤ r.txQ.length := by
  cases c with
  | handleTx payload' =>
      rw [SimRig.handleCall] at h
      split at h
      · assumption
      · cases List.mem_singleton.mp h
  | _ => cases h

theorem simTurn_refuses (r : SimRig) (i : SimTurn) : Refuses r i := by
  intro payload h
  have hburst : ∀ b : SimBurst, .refused payload ∉ (b.turn r.burstId).2.2 := by
    intro b hb
    obtain ⟨p, hp⟩ := turn_packets _ _ _ hb
    cases hp
  cases i with
  | poll p =>
      have hle := length_parse_le r.parser p
      obtain ⟨d, calls, hparse⟩ : ∃ d calls, r.parser.parse p = (d, calls) := ⟨_, _, rfl⟩
      rw [simTurn] at h
      rw [hparse] at h hle
      split at h
      · rcases List.mem_cons.mp h with h | h
        · cases h
        · cases calls with
          | nil => cases h
          | cons c calls =>
              have hnil : calls = [] := List.length_eq_zero_iff.mp (Nat.le_zero.mp
                (Nat.le_of_succ_le_succ hle))
              rw [hnil, run_cons, run_nil, List.append_nil] at h
              exact handleCall_refuses (r := { r with parser := d }) h
      · cases h
  | say =>
      rw [simTurn] at h
      split at h
      · cases h
      · cases List.mem_singleton.mp h
  | tx =>
      change _ ∈ r.txTurn.2 at h
      unfold SimRig.txTurn at h
      split at h
      · split at h <;> cases h
      · cases List.mem_singleton.mp h
      · exact absurd h (hburst _)
      · cases h
  | generator =>
      change _ ∈ r.generatorTurn.2 at h
      unfold SimRig.generatorTurn at h
      split at h
      · split at h
        · cases List.mem_singleton.mp h
        · cases h
      · exact absurd h (hburst _)
      · cases h
  | sweep =>
      change _ ∈ r.sweepTurn.2 at h
      unfold SimRig.sweepTurn at h
      split at h
      · cases h
      · split at h
        · cases h
        · cases List.mem_singleton.mp h
      all_goals cases h

/-- Whatever the order of the threads: every frame that the parser recognises meets the
queue, in the order of the bytes; of those that are taken each is answered once, in
their order, or is still owed; never more than two wait, and none is refused while
fewer do. -/
theorem sim_frames_answered (every : ℕ) (turns : List SimTurn) :
    let r := run simTurn { every := every } turns
    (r.2.filterMap SimEvent.offered?).map Prod.fst =
        (run SimParser.parse {} (r.2.filterMap SimEvent.read?)).2.filterMap SimCall.tx? ∧
      r.2.filterMap SimEvent.accepted? = r.2.filterMap SimEvent.terminal? ++ r.1.owed ∧
      r.1.txQ.length ≤ 2 ∧ Along simTurn Refuses { every := every } turns := by
  intro r
  have h := run_simTurn_handles { every := every } turns
  exact ⟨h.offered, h.owed, h.room (Nat.zero_le 2),
    Along.of_forall (fun i _ s ↦ simTurn_refuses s i) _⟩

end RadioService.Serial
