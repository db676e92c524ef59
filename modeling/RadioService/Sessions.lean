import RadioService.Leftovers
import RadioService.Service
import RadioService.TxTerminals

/-!
# Sessions

A session ends when the host resets the service or another client connects.
What was asked for before should not come up again: no frame of the old session
is sent or reported, and no old sweep reports a channel.  Neither boundary
touches the queue or the scan, so this holds exactly where nothing is left over.
-/

namespace RadioService.Serial

open Bytes Burst Machine Traced

/-! ## The service as a system of sections -/

/-- What a transmission sees of the service's events. -/
def ServiceEvent.tx? : ServiceEvent → Option TxEvent
  | .effect e => some (.effect e)
  | .answer frame t => some (.answer frame t)
  | _ => none

def txEvents (out : List ServiceEvent) : List TxEvent := out.filterMap ServiceEvent.tx?

@[simp] theorem txEvents_append (out out' : List ServiceEvent) :
    txEvents (out ++ out') = txEvents out ++ txEvents out' := List.filterMap_append

@[simp] theorem txEvents_writes (bufs : List (List UInt8)) : txEvents (writes bufs) = [] := by
  simp [txEvents, writes, ServiceEvent.tx?]

theorem txEvents_called (e : Effect) : txEvents (called e) = [.effect e] := by
  have hframes : txEvents ((onWorkerEffect e).flatMap fun m ↦ writes m.pieces) = [] := by
    rw [txEvents, List.filterMap_flatMap]
    exact List.flatMap_eq_nil_iff.mpr fun m _ ↦ txEvents_writes m.pieces
  exact congrArg (TxEvent.effect e :: ·) hframes

theorem enqueueTx_silent (frame : TxFrame) (w : RadioWorker) :
    ((enqueueTx frame).run w).log = [] := by
  by_cases hrefused : enqueueRefused w = true
  · simp [enqueueTx, hrefused]
  · by_cases hfull : w.txQ.length ≥ 16 <;> simp [enqueueTx, pushFrame, hrefused, hfull]

/-- The worker between two sections, with nobody waiting for the queue. -/
def Service.system (s : Service) : TxSystem := { worker := s.worker, calls := s.calls }

/-- Sections lead from one service to another, with the same events. -/
def Sections (s : Service) (next : Service × List ServiceEvent) : Prop :=
  ∃ is, run txStep s.system is = (next.1.system, txEvents next.2)

theorem sections_perform {α : Type} {m : Work α} (hm : Sectioned m) (s : Service) :
    Sections s (s.perform m) := by
  obtain ⟨is, his⟩ := hm s.system rfl
  refine ⟨is, his.trans (Prod.ext rfl ?_)⟩
  change shown (m.run s.worker) = txEvents ((m.run s.worker).log.flatMap fun p ↦ called p.2)
  rw [txEvents, List.filterMap_flatMap, shown, List.map_eq_flatMap]
  exact congrArg (List.flatMap · (m.run s.worker).log)
    (funext fun p ↦ (txEvents_called p.2).symm)

theorem sections : Composes Sections where
  stay := by
    intro s s' bufs hworker hcalls
    refine ⟨[], ?_⟩
    rw [Service.system, Service.system, hworker, hcalls, txEvents_writes]
    rfl
  trans := by
    rintro s s' s'' out out' ⟨is, his⟩ ⟨js, hjs⟩
    exact ⟨is ++ js, (run_trans his hjs).trans (by rw [txEvents_append])⟩
  sweep s io p := by
    obtain ⟨is, his⟩ := sections_perform (Sectioned.startScan p io.now io.scanFreqSt) s
    exact ⟨is, his⟩
  config s cfg io := sections_perform (Sectioned.applyConfig cfg io) s
  tx s payload := by
    obtain ⟨is, his⟩ := Sectioned.enqueueTx s.system payload rfl
    have hsilent : ((enqueueTx ⟨s.calls, payload⟩).run s.worker).log = [] :=
      enqueueTx_silent _ _
    refine ⟨is, his.trans (Prod.ext rfl ?_)⟩
    simp only [Service.handleTx, Service.perform, hsilent, List.flatMap_nil, List.nil_append]
    exact congrArg (TxEvent.answer _ _ :: ·) (txEvents_writes _).symm
  poll s io := sections_perform (Sectioned.pollOnce io) s

/-! ## Sweeps -/

/-- Every channel that is reported belongs to a sweep begun before, in these
events. -/
def Followed (out : List ServiceEvent) : Prop :=
  ∀ pre post e, out = pre ++ .effect e :: post → e.isResult = true → ∃ p, .sweep p ∈ pre

namespace Followed

variable {out out' : List ServiceEvent}

theorem of_none (h : ∀ e, .effect e ∈ out → e.isResult = false) : Followed out := by
  intro pre post e hout he
  have hmem : ServiceEvent.effect e ∈ out := hout ▸ List.mem_append_right _ List.mem_cons_self
  rw [h e hmem] at he
  cases he

/-- What is reported behind a sweep belongs to it or to a later one. -/
theorem append (h : Followed out) (h' : (∃ p, .sweep p ∈ out) ∨ Followed out') :
    Followed (out ++ out') := by
  intro pre post e hout he
  rcases List.append_eq_append_iff.mp hout with ⟨mid, hpre, hpost⟩ | ⟨mid, hpre, hpost⟩
  · rcases h' with ⟨p, hp⟩ | h'
    · exact ⟨p, hpre ▸ List.mem_append_left _ hp⟩
    · obtain ⟨p, hp⟩ := h' mid post e hpost he
      exact ⟨p, hpre ▸ List.mem_append_right _ hp⟩
  · cases mid with
    | nil =>
        rw [List.append_nil] at hpre
        rw [List.nil_append] at hpost
        rcases h' with ⟨p, hp⟩ | h'
        · exact ⟨p, hpre ▸ hp⟩
        · obtain ⟨p, hp⟩ := h' [] post e hpost.symm he
          cases hp
    | cons x mid =>
        rw [List.cons_append, List.cons.injEq] at hpost
        obtain ⟨rfl, -⟩ := hpost
        exact h pre mid e hpre he

end Followed

/-- Without a sweep under way, only sweeps begun from here on report channels. -/
def OwnSweeps (s : Service) (next : Service × List ServiceEvent) : Prop :=
  s.worker.scanActive = false →
    Followed next.2 ∧ ((∃ p, .sweep p ∈ next.2) ∨ next.1.worker.scanActive = false)

theorem effect_mem_called {e e' : Effect} (h : .effect e ∈ called e') : e = e' := by
  have hmem : TxEvent.effect e ∈ txEvents (called e') := List.mem_filterMap.mpr ⟨_, h, rfl⟩
  rw [txEvents_called, List.mem_singleton] at hmem
  exact TxEvent.effect.inj hmem

theorem effect_mem_perform {α : Type} {m : Work α} {s : Service} {e : Effect}
    (h : .effect e ∈ (s.perform m).2) : ∃ p ∈ (m.run s.worker).log, p.2 = e := by
  obtain ⟨p, hp, hcalled⟩ := List.mem_flatMap.mp h
  exact ⟨p, hp, (effect_mem_called hcalled).symm⟩

theorem effect_not_mem_writes (e : Effect) (bufs : List (List UInt8)) :
    .effect e ∉ writes bufs := by
  simp [writes]

theorem ownSweeps_perform {α : Type} {m : Work α} (hm : Scanless m) (s : Service) :
    OwnSweeps s (s.perform m) := by
  intro hs
  obtain ⟨hkeep, hlog⟩ := hm s.worker hs
  refine ⟨.of_none fun e he ↦ ?_, .inr hkeep⟩
  obtain ⟨p, hp, rfl⟩ := effect_mem_perform he
  exact hlog p hp

theorem ownSweeps : Composes OwnSweeps where
  stay := by
    intro s s' bufs hworker _ hs
    exact ⟨.of_none fun e he ↦ absurd he (effect_not_mem_writes e bufs), .inr (hworker ▸ hs)⟩
  trans := by
    intro s s' s'' out out' h h' hs
    obtain ⟨hfollowed, hnext⟩ := h hs
    rcases hnext with ⟨p, hp⟩ | hidle
    · exact ⟨hfollowed.append (.inl ⟨p, hp⟩), .inl ⟨p, List.mem_append_left _ hp⟩⟩
    · obtain ⟨hfollowed', hnext'⟩ := h' hidle
      refine ⟨hfollowed.append (.inr hfollowed'), hnext'.imp_left fun ⟨p, hp⟩ ↦ ?_⟩
      exact ⟨p, List.mem_append_right _ hp⟩
  sweep s io p _ := by
    refine ⟨fun pre post e hout _ ↦ ?_, .inl ⟨p, List.mem_cons_self⟩⟩
    cases pre with
    | nil => cases (List.cons.inj hout).1
    | cons x pre => exact ⟨p, (List.cons.inj hout).1 ▸ List.mem_cons_self⟩
  config s cfg io := ownSweeps_perform (Scanless.rules.applyConfig cfg io) s
  tx s payload hs := by
    have h := ownSweeps_perform (.enqueueTx ⟨s.calls, payload⟩) { s with calls := s.calls + 1 } hs
    refine ⟨h.1.append (.inr (.of_none fun e he ↦ ?_)), .inr ?_⟩
    · rcases List.mem_cons.mp he with he | he
      · cases he
      · exact absurd he (effect_not_mem_writes e _)
    · exact (Scanless.enqueueTx ⟨s.calls, payload⟩ s.worker hs).1
  poll s io := ownSweeps_perform (.pollOnce io) s

/-! ## Boundaries -/

/-- Handling an `X`, or accepting a client. -/
def EndsSession (s : Service) : ServiceStep → Prop
  | .serve op _ => s.atWorker = false ∧
    (.command .handleReset ∈ (serverStep s.server op).2 ∨ .greeting ∈ (serverStep s.server op).2)
  | .poll _ => False

/-- What the server does without the worker: it writes frames, and no more. -/
def ServerEvent.writesOnly : ServerEvent → Bool
  | .command .handleReset | .greeting | .periodicStats => true
  | _ => false

theorem respond_writes {e : ServerEvent} (h : e.writesOnly = true) (s : Service)
    (io : HandlerInput) : ∃ bufs, respond io s e = (s, writes bufs) := by
  unfold ServerEvent.writesOnly at h
  split at h
  · exact ⟨_, rfl⟩
  · exact ⟨writeReady 511 ++ writeStats (statsFrame s.worker.st io.now
      s.server.parserFramesKilled), Prod.ext rfl (List.map_append ..).symm⟩
  · exact ⟨_, rfl⟩
  · cases h

theorem run_respond_writes {es : List ServerEvent} (h : ∀ e ∈ es, e.writesOnly = true)
    (s : Service) (io : HandlerInput) : ∃ bufs, run (respond io) s es = (s, writes bufs) := by
  induction es with
  | nil => exact ⟨[], rfl⟩
  | cons e es ih =>
      obtain ⟨bufs, hhead⟩ := respond_writes (h e List.mem_cons_self) s io
      obtain ⟨bufs', hrest⟩ := ih fun e he ↦ h e (List.mem_cons_of_mem _ he)
      exact ⟨bufs ++ bufs', (run_step hhead hrest).trans
        (Prod.ext rfl (List.map_append ..).symm)⟩

theorem consume_reset {p : Parser} {b : UInt8} (h : .handleReset ∈ (consume p b).2) :
    (consume p b).2 = [.handleReset] := by
  have htag : .handleReset ∈ (onTag p b).2 → (onTag p b).2 = [.handleReset] := by
    unfold onTag
    split_ifs <;> simp
  unfold consume switch at h ⊢
  split_ifs at h ⊢
  · cases h
  cases hstate : p.state with
  | tag =>
      rw [hstate] at h
      exact htag h
  | txMagic | lenLo | scanCount =>
      rw [hstate] at h
      cases h
  | _ =>
      rw [hstate] at h
      revert h
      simp only [onSetWindow, onLenHi, onConfig, onPayload, onScanBody]
      split_ifs <;> simp

theorem maybeEmitStats_writesOnly (s : SerialServer) (now : UInt32) :
    ∀ e ∈ (maybeEmitStats s now).2, e.writesOnly = true := by
  unfold maybeEmitStats
  split <;> simp [ServerEvent.writesOnly]

theorem feed_writesOnly {s : SerialServer} {r : RxByte}
    (h : .command .handleReset ∈ (feed s r).2 ∨ .greeting ∈ (feed s r).2) :
    ∀ e ∈ (feed s r).2, e.writesOnly = true := by
  have hevents : ∃ stats : List ServerEvent, (∀ e ∈ stats, e = .periodicStats) ∧
      (feed s r).2 = (receive s.toClockedParser r).2.map .command ++ stats := by
    unfold feed maybeEmitStats
    dsimp only
    split_ifs <;> exact ⟨_, by simp, rfl⟩
  obtain ⟨stats, hstats, hfeed⟩ := hevents
  have hreset : .handleReset ∈ (receive s.toClockedParser r).2 := by
    simp only [hfeed, List.mem_append, List.mem_map] at h
    rcases h with (⟨c, hc, heq⟩ | h) | (⟨c, hc, heq⟩ | h)
    · exact ServerEvent.command.inj heq ▸ hc
    · cases hstats _ h
    · cases heq
    · cases hstats _ h
  have halone : (receive s.toClockedParser r).2 = [.handleReset] := consume_reset hreset
  intro e he
  rw [hfeed, halone, List.mem_append] at he
  rcases he with he | he
  · rw [List.mem_singleton.mp he]
    rfl
  · rw [hstats e he]
    rfl

/-- A boundary reaches the host, and nothing else. -/
theorem boundary_writesOnly {s : SerialServer} {op : ServerOp}
    (h : .command .handleReset ∈ (serverStep s op).2 ∨ .greeting ∈ (serverStep s op).2) :
    ∀ e ∈ (serverStep s op).2, e.writesOnly = true := by
  cases op with
  | accept now =>
      rw [serverStep]
      split <;> simp [ServerEvent.writesOnly]
  | byte r =>
      rw [serverStep] at h ⊢
      split at h
      case isFalse => simp at h
      rw [if_pos ‹_›]
      exact feed_writesOnly h
  | empty now =>
      rw [serverStep]
      split
      · exact maybeEmitStats_writesOnly s now
      · simp
  | close => simp [serverStep]

/-- A boundary leaves the queue and the scan as they are. -/
theorem EndsSession.step {s : Service} {b : ServiceStep} (h : EndsSession s b) :
    ∃ server bufs, serviceStep s b = ({ s with server := server }, writes bufs) := by
  cases b with
  | poll io => exact h.elim
  | serve op io =>
      obtain ⟨hturn, hends⟩ := h
      obtain ⟨bufs, hbufs⟩ := run_respond_writes (boundary_writesOnly hends)
        { s with server := (serverStep s.server op).1, atWorker := op.returns } io
      have hreads : op.returns = s.atWorker := by
        rw [hturn]
        cases op with
        | empty now =>
            revert hends
            simp only [serverStep, maybeEmitStats]
            split_ifs <;> simp
        | close => simp [serverStep] at hends
        | _ => rfl
      refine ⟨(serverStep s.server op).1, bufs, ?_⟩
      rw [serviceStep, if_neg (by simp [hturn])]
      exact hbufs.trans (by rw [hreads])

/-! ## Leftovers -/

/-- Nothing of what these events accepted or started comes up again: no packet
and no terminal of an accepted frame, and no channel but of a new sweep. -/
structure Isolated (s : Service) (out : List ServiceEvent) : Prop where
  frames : ∀ later, ∀ frame ∈ accepted (txEvents out),
    (∀ t, (frame, t) ∉ terminals (txEvents (run serviceStep s later).2)) ∧
      ∀ st, (frame, st) ∉ starts (txEvents (run serviceStep s later).2)
  sweeps : ∀ later, Followed (run serviceStep s later).2

/-- A turn of the main loop in which nothing comes from the host. -/
def silentTurn (io : RadioService.PollInput) : List ServiceStep := [.serve (.empty 0) {}, .poll io]

theorem silentTurn_run {s : Service} (hs : s.atWorker = false) (io : RadioService.PollInput) :
    ∃ server bufs, run serviceStep s (silentTurn io) =
      ({ s with server := server, worker := ((RadioService.pollOnce io).run s.worker).state },
        writes bufs ++
          ((RadioService.pollOnce io).run s.worker).log.flatMap fun p ↦ called p.2) := by
  have hwrites : ∀ e ∈ (serverStep s.server (.empty 0)).2, e.writesOnly = true := by
    rw [serverStep]
    split
    · exact maybeEmitStats_writesOnly _ _
    · simp
  obtain ⟨bufs, hbufs⟩ := run_respond_writes hwrites
    { s with server := (serverStep s.server (.empty 0)).1, atWorker := true } {}
  refine ⟨(serverStep s.server (.empty 0)).1, bufs, ?_⟩
  have hserve : serviceStep s (.serve (.empty 0) {}) =
      ({ s with server := (serverStep s.server (.empty 0)).1, atWorker := true },
        writes bufs) := by
    rw [serviceStep, if_neg (by simp [hs])]
    exact hbufs
  refine run_step hserve ?_
  rw [run_cons, serviceStep, if_pos rfl, run_nil, List.append_nil, ← hs]
  rfl

/-- With an empty queue and no scan nothing is left over. -/
theorem isolated_of_empty {s : Service} {out : List ServiceEvent}
    (h : Ledger s.system (txEvents out)) (hq : s.worker.txQ = [])
    (hscan : s.worker.scanActive = false) : Isolated s out := by
  refine ⟨fun later frame hframe ↦ ?_, fun later ↦ (ownSweeps.run s later hscan).1⟩
  have hterminal : frame ∈ (terminals (txEvents out)).map Prod.fst := by
    rw [h.balance] at hframe
    simpa [Service.system, hq, Stage.inFlight, Stage.due, Stage.popped] using hframe
  have htold : frame ∈ (told s.system (txEvents out)).map Prod.fst := by
    rw [told, List.map_append]
    exact List.mem_append_left _ hterminal
  obtain ⟨is, his⟩ := sections.run s later
  rw [show txEvents (run serviceStep s later).2 = (run txStep s.system is).2 by rw [his]]
  exact ⟨fun t ↦ h.not_retold hterminal is t, fun st ↦ h.not_restarted htold is st⟩

/-- In two turns without the host the queue can be emptied: down to level 1, then
a cutoff. -/
theorem exists_drained {s : Service} (hs : s.atWorker = false) :
    ∃ later, (run serviceStep s later).1.worker.txQ = [] := by
  obtain ⟨now, hdue, -⟩ := exists_due s.worker.toSettings 0
  obtain ⟨hlevel, hlast⟩ := poll_throttled hdue
  have hdue' : thermalDue ((RadioService.pollOnce (pollAt now 1)).run s.worker).state.toSettings
      (now + 4000) = true := by
    have hgap : now + 4000 - now = 4000 := add_sub_cancel_left _ _
    simp [thermalDue, hlast, hgap]
  have hcut := poll_drains hdue' hlevel
  refine ⟨silentTurn (pollAt now 1) ++ silentTurn (pollAt (now + 4000) 2), ?_⟩
  obtain ⟨server, bufs, hfirst⟩ := silentTurn_run hs (pollAt now 1)
  obtain ⟨server', bufs', hsecond⟩ := silentTurn_run
    (s := (run serviceStep s (silentTurn (pollAt now 1))).1) (by rw [hfirst]; exact hs)
    (pollAt (now + 4000) 2)
  rw [run_append, hsecond, hfirst]
  exact hcut

/-- A frame left in the queue gets its terminal later, at a cutoff at the latest. -/
theorem Isolated.queue_empty {s : Service} {out : List ServiceEvent} (h : Isolated s out)
    (hledger : Ledger s.system (txEvents out)) (hs : s.atWorker = false) :
    s.worker.txQ = [] := by
  by_contra hne
  -- once the queue has been emptied, conservation leaves the frame no other place than
  -- among the terminals; there it is not yet, so it comes later
  obtain ⟨frame, hframe⟩ := List.exists_mem_of_ne_nil _ hne
  obtain ⟨later, hdrained⟩ := exists_drained hs
  obtain ⟨is, his⟩ := sections.run s later
  have hfinal : Ledger (run txStep s.system is).1 (txEvents out ++ (run txStep s.system is).2) :=
    run_history (fun _ _ i h ↦ Ledger.step i h) hledger
  rw [his] at hfinal
  have haccepted : frame ∈ accepted (txEvents out) := by
    rw [hledger.conserved]
    exact List.mem_append_right _ hframe
  have hterminal : frame ∈ (terminals (txEvents out ++
      txEvents (run serviceStep s later).2)).map Prod.fst := by
    have hbalance := hfinal.balance
    simp only [Service.system, hdrained, Stage.inFlight, Stage.due, Stage.popped, List.map_nil,
      List.append_nil] at hbalance
    rw [← hbalance, accepted, answered_append]
    exact List.mem_append_left _ haccepted
  rw [terminals_append, List.map_append, List.mem_append] at hterminal
  rcases hterminal with hold | hnew
  · refine hledger.not_told (List.mem_append_right _ hframe) ?_
    rw [told, List.map_append]
    exact List.mem_append_left _ hold
  · obtain ⟨⟨_, t⟩, ht, rfl⟩ := List.mem_map.mp hnew
    exact (h.frames later _ haccepted).1 t ht

/-- A scan left under way reports its next channel later. -/
theorem Isolated.scan_over {s : Service} {out : List ServiceEvent} (h : Isolated s out)
    (hs : s.atWorker = false) : s.worker.scanActive = false := by
  by_contra hactive
  rw [Bool.not_eq_false] at hactive
  obtain ⟨now, hdue, hdwell⟩ := exists_due s.worker.toSettings s.worker.scanDwellUntil
  obtain ⟨p, hp, hresult⟩ := poll_reports hdue hactive hdwell
  obtain ⟨server, bufs, hturn⟩ := silentTurn_run hs (pollAt now 1)
  have hfollowed := h.sweeps (silentTurn (pollAt now 1))
  rw [hturn] at hfollowed
  have hmem : ServiceEvent.effect p.2 ∈
      ((RadioService.pollOnce (pollAt now 1)).run s.worker).log.flatMap fun p ↦ called p.2 :=
    List.mem_flatMap.mpr ⟨p, hp, List.mem_cons_self⟩
  obtain ⟨pre, post, hsplit⟩ := List.append_of_mem (List.mem_append_right (writes bufs) hmem)
  obtain ⟨q, hq⟩ := hfollowed pre post p.2 hsplit hresult
  have hsweep : ServiceEvent.sweep q ∈ writes bufs ++
      ((RadioService.pollOnce (pollAt now 1)).run s.worker).log.flatMap fun p ↦ called p.2 :=
    hsplit ▸ List.mem_append_left _ hq
  simp [writes, called] at hsweep

/-- A boundary isolates the sessions exactly if the queue is empty and no scan is
under way. -/
theorem session_isolated_iff (tcp : Bool) (now : UInt32) (io : InitInput)
    {steps : List ServiceStep} {s : Service} {out : List ServiceEvent} {b : ServiceStep}
    (hrun : run serviceStep (.boot tcp now io) steps = (s, out)) (hends : EndsSession s b) :
    Isolated (serviceStep s b).1 (out ++ (serviceStep s b).2) ↔
      s.worker.txQ = [] ∧ s.worker.scanActive = false := by
  have hledger : Ledger s.system (txEvents out) := by
    obtain ⟨is, his⟩ := sections.run (.boot tcp now io) steps
    have h := run_ledger io is
    rw [show TxSystem.start io = (Service.boot tcp now io).system from rfl, his, hrun] at h
    exact h
  have hs : s.atWorker = false := by
    cases b with
    | serve op io => exact hends.1
    | poll io => exact hends.elim
  obtain ⟨server, bufs, hstep⟩ := hends.step
  have hevents : txEvents (out ++ writes bufs) = txEvents out := by simp
  rw [hstep]
  constructor
  · intro h
    exact ⟨h.queue_empty (hevents ▸ hledger) hs, h.scan_over hs⟩
  · rintro ⟨hq, hscan⟩
    exact isolated_of_empty (hevents ▸ hledger) hq hscan

/-- A frame is confirmed and a sweep of one channel ends. -/
def spentSession : List ServiceStep :=
  ([tagT, tagX, 1, 0, 7].map fun b ↦ .serve (.byte { byte := b, now := 5 }) {}) ++
    [.serve (.empty 5) {}, .poll { pollAt 10 0 with
      burst := ⟨1, 0, fun _ _ ↦ ⟨0, 10, [⟨10, irqTxDone⟩]⟩⟩ }] ++
    ([tagQ, 1, 50, 0, 0, 0, 0x80, 0x6D, 0xC3, 0x35].map fun b ↦
      .serve (.byte { byte := b, now := 20 }) { now := 20 }) ++
    [.serve (.empty 20) {}, .poll (pollAt 100 0)]

theorem session_isolated_spent :
    let before := run serviceStep (.boot false 0 {}) spentSession
    let reset := serviceStep before.1 (.serve (.byte { byte := tagX, now := 200 }) {})
    (⟨0, [7]⟩, .kOk) ∈ terminals (txEvents before.2) ∧
      .effect (.onScanResult 902000000 0 0 (-128)) ∈ before.2 ∧
      Isolated reset.1 (before.2 ++ reset.2) := by
  have hends : EndsSession (run serviceStep (.boot false 0 {}) spentSession).1
      (.serve (.byte { byte := tagX, now := 200 }) {}) :=
    ⟨by decide +kernel, .inl (by decide +kernel)⟩
  have hspent : (run serviceStep (.boot false 0 {}) spentSession).1.worker.txQ = [] ∧
      (run serviceStep (.boot false 0 {}) spentSession).1.worker.scanActive = false := by
    decide +kernel
  exact ⟨by decide +kernel, by decide +kernel,
    (session_isolated_iff false 0 {} rfl hends).mpr hspent⟩

/-- A frame is accepted, then an `X` handled; the frame is transmitted and
reported behind it. -/
theorem leftover_frame_sent :
    let bytes : List UInt8 := [tagT, tagX, 1, 0, 7]
    let steps : List ServiceStep := bytes.map fun b ↦ .serve (.byte { byte := b, now := 5 }) {}
    let before := run serviceStep (.boot false 0 {}) steps
    let reset := serviceStep before.1 (.serve (.byte { byte := tagX, now := 5 }) {})
    let later := (run serviceStep reset.1 (silentTurn (pollAt 10 0))).2
    reset.2 = writes [[tagG]] ∧ (⟨0, [7]⟩, errNone) ∈ starts (txEvents later) ∧
      (⟨0, [7]⟩, .kDropped) ∈ terminals (txEvents later) ∧
      ¬Isolated reset.1 (before.2 ++ reset.2) := by
  have hterminal : (⟨0, [7]⟩, .kDropped) ∈ terminals (txEvents (run serviceStep
      (serviceStep (run serviceStep (.boot false 0 {})
        (([tagT, tagX, 1, 0, 7] : List UInt8).map fun b ↦
          .serve (.byte { byte := b, now := 5 }) {})).1
        (.serve (.byte { byte := tagX, now := 5 }) {})).1 (silentTurn (pollAt 10 0))).2) := by
    decide +kernel
  refine ⟨by decide +kernel, by decide +kernel, hterminal, fun h ↦ ?_⟩
  exact (h.frames (silentTurn (pollAt 10 0)) ⟨0, [7]⟩ (by decide +kernel)).1 .kDropped hterminal

end RadioService.Serial
