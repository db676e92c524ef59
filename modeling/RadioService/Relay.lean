import RadioService.Airings
import RadioService.Hearing
import RadioService.Wire

/-!
# From host to host

One node puts the frames of its host on the air, another hears some of the
packets and hands them up to a host of its own.  What that host puts together
are the payloads of the bursts it has heard every packet of: some of those that
the first host has sent, in the order sent.
-/

namespace RadioService

open Burst Traced Machine

/-- Packets of bursts are all handed up. -/
theorem Airing.isBurst_of_mem {as : List Airing} {p : Packet × Int16}
    (h : p.1.bytes ∈ as.flatMap Airing.packets) : isBurst p = true := by
  obtain ⟨a, -, hpkt⟩ := List.mem_flatMap.mp h
  obtain ⟨idx, hidx, hp⟩ := List.mem_map.mp hpkt
  have hpart := a.airPart_packet (a.bounded idx hidx)
  rw [hp, airPart] at hpart
  obtain ⟨hdr, hdecode, -⟩ := Option.map_eq_some_iff.mp hpart
  rw [isBurst, hdecode]
  rfl

namespace Serial

open Stats Streams

/-! ## What a host sends -/

/-- The payload of a `T` command. -/
def Act.payload? : Act → Option (List UInt8)
  | command (.handleTx payload) => some payload
  | _ => none

def ServiceEvent.offered? : ServiceEvent → Option TxFrame
  | .answer frame _ => some frame
  | _ => none

def offered (out : List ServiceEvent) : List TxFrame := out.filterMap ServiceEvent.offered?

@[simp] theorem offered_append (out out' : List ServiceEvent) :
    offered (out ++ out') = offered out ++ offered out' := List.filterMap_append

@[simp] theorem offered_writes (bufs : List (List UInt8)) : offered (writes bufs) = [] := by
  simp [offered, writes, List.filterMap_map, Function.comp_def, ServiceEvent.offered?]

theorem offered_called (e : Effect) : offered (called e) = [] := by
  change offered ((onWorkerEffect e).flatMap fun m ↦ writes m.pieces) = []
  rw [offered, List.filterMap_flatMap]
  exact List.flatMap_eq_nil_iff.mpr fun m _ ↦ offered_writes m.pieces

theorem offered_perform {α : Type} (s : Service) (m : Work α) :
    offered (s.perform m).2 = [] := by
  change offered ((m.run s.worker).log.flatMap fun p ↦ called p.2) = []
  rw [offered, List.filterMap_flatMap]
  exact List.flatMap_eq_nil_iff.mpr fun p _ ↦ offered_called p.2

/-- The frames that the service offers to the worker leave the queue on the air. -/
def ServiceAirs (s : Service) (next : Service × List ServiceEvent) : Prop :=
  Airs (s.worker.txQ ++ offered next.2) (effects next.2) next.1.worker.txQ

theorem serviceAirs_perform (s : Service) (c : Call) (h : c.offered = []) :
    ServiceAirs s (s.perform c.exec) := by
  have hairs := workerStep_airs s.worker c
  rw [h] at hairs
  unfold ServiceAirs
  rw [offered_perform, effects_perform]
  exact hairs

theorem serviceAirs : Composes ServiceAirs where
  stay := by
    intro s s' bufs hworker _
    unfold ServiceAirs
    dsimp only
    rw [offered_writes, effects_writes, hworker, List.append_nil]
    exact Airs.stay (List.Sublist.refl _)
  trans := by
    intro s s' s'' out out' h h'
    unfold ServiceAirs at h h' ⊢
    dsimp only at h h' ⊢
    rw [offered_append, effects_append, ← List.append_assoc]
    exact (h.behind (offered out')).trans h'
  sweep s io p := by
    have hairs := serviceAirs_perform s (.startScan p io.now io.scanFreqSt) rfl
    exact hairs
  config s cfg io := by
    have hairs := serviceAirs_perform s (.applyConfig cfg io) rfl
    unfold ServiceAirs at hairs ⊢
    rw [offered_perform, effects_perform] at hairs ⊢
    have hevents : ((discard (applyConfig cfg io)).run s.worker).events =
        ((applyConfig cfg io).run s.worker).events :=
      congrArg Outcome.events (Traced.run_discard _ _)
    rw [← hevents]
    exact hairs
  tx s payload := by
    have hairs := workerStep_airs s.worker (.enqueueTx ⟨s.calls, payload⟩)
    have hevents : ((discard (enqueueTx ⟨s.calls, payload⟩)).run s.worker).events =
        ((enqueueTx ⟨s.calls, payload⟩).run s.worker).events :=
      congrArg Outcome.events (Traced.run_discard _ _)
    have hanswer : ∀ frame t bufs, offered (.answer frame t :: writes bufs) = [frame] :=
      fun frame _ bufs ↦ congrArg (frame :: ·) (offered_writes bufs)
    have hsilent : ∀ frame t bufs, effects (.answer frame t :: writes bufs) = [] :=
      fun _ _ bufs ↦ effects_writes bufs
    unfold ServiceAirs
    simp only [Service.handleTx, offered_append, effects_append, hanswer, hsilent,
      List.append_nil]
    rw [offered_perform, effects_perform, List.nil_append, ← hevents]
    exact hairs
  poll s io := serviceAirs_perform s (.pollOnce io) rfl

/-- The frames offered bear the numbers of the calls, one behind the other. -/
def NumbersFrames (s : Service) (next : Service × List ServiceEvent) : Prop :=
  ∃ n, (offered next.2).map TxFrame.call = List.range' s.calls n ∧ next.1.calls = s.calls + n

theorem numbersFrames_perform {α : Type} (s : Service) (m : Work α) :
    NumbersFrames s (s.perform m) := by
  refine ⟨0, ?_, rfl⟩
  rw [offered_perform]
  rfl

theorem numbersFrames : Composes NumbersFrames where
  stay := by
    intro s s' bufs _ hcalls
    refine ⟨0, ?_, hcalls⟩
    rw [offered_writes]
    rfl
  trans := by
    rintro s s' s'' out out' ⟨n, hout, hcalls⟩ ⟨n', hout', hcalls'⟩
    dsimp only at hout hout' hcalls hcalls'
    refine ⟨n + n', ?_, ?_⟩
    · rw [offered_append, List.map_append, hout, hout', hcalls, List.range'_append_1]
    · dsimp only
      rw [hcalls', hcalls, Nat.add_assoc]
  sweep s io p := numbersFrames_perform s (startScan p io.now io.scanFreqSt)
  config s cfg io := numbersFrames_perform s (applyConfig cfg io)
  tx s payload := by
    refine ⟨1, ?_, rfl⟩
    have hanswer : ∀ frame t bufs, offered (.answer frame t :: writes bufs) = [frame] :=
      fun frame _ bufs ↦ congrArg (frame :: ·) (offered_writes bufs)
    simp only [Service.handleTx, offered_append, hanswer, offered_perform]
    rfl
  poll s io := numbersFrames_perform s (RadioService.pollOnce io)

theorem nodup_offered (s : Service) (is : List ServiceStep) :
    (offered (run serviceStep s is).2).Nodup := by
  obtain ⟨n, hcalls, -⟩ := numbersFrames.run s is
  apply List.Nodup.of_map TxFrame.call
  rw [hcalls]
  exact List.nodup_range'

theorem offered_performActs {α : Type} (s : Service) (m : Work α) :
    offered ((s.performActs m).flatMap Act.events) = [] ∧
      (s.performActs m).filterMap Act.payload? = [] := by
  rw [performActs_events, offered_perform]
  exact ⟨rfl, List.filterMap_eq_nil_iff.mpr fun a ha ↦ by
    obtain ⟨e, -, rfl⟩ := List.mem_map.mp ha
    rfl⟩

/-- What is offered to the worker are the payloads of the `T` commands handled. -/
def OffersPayloads (acts : List Act) : Prop :=
  (offered (acts.flatMap Act.events)).map TxFrame.payload = acts.filterMap Act.payload?

theorem OffersPayloads.append {acts acts' : List Act} (h : OffersPayloads acts)
    (h' : OffersPayloads acts') : OffersPayloads (acts ++ acts') := by
  unfold OffersPayloads at h h' ⊢
  rw [List.flatMap_append, offered_append, List.map_append, List.filterMap_append, h, h']

theorem OffersPayloads.say (e : Emission) : OffersPayloads [.say e] := by
  unfold OffersPayloads
  rw [List.flatMap_singleton]
  exact congrArg (List.map TxFrame.payload) (offered_writes e.pieces)

theorem OffersPayloads.performActs {α : Type} (s : Service) (m : Work α) :
    OffersPayloads (s.performActs m) := by
  obtain ⟨hoffered, hpayload⟩ := offered_performActs s m
  rw [OffersPayloads, hoffered, hpayload]
  rfl

theorem OffersPayloads.sweepActs (s : Service) (io : HandlerInput) (p : ScanParams) :
    OffersPayloads (s.sweepActs io p) := by
  have hsweep : OffersPayloads [.sweep p] := rfl
  exact hsweep.append (performActs s _)

theorem OffersPayloads.serverActs (s : Service) (io : HandlerInput) (e : ServerEvent) :
    OffersPayloads (s.serverActs io e) := by
  have hquiet : ∀ {a : Act} {acts : List Act}, a.payload? = none → offered a.events = [] →
      OffersPayloads acts → OffersPayloads (a :: acts) := by
    intro a acts hpayload hoffered h
    have ha : OffersPayloads [a] := by
      rw [OffersPayloads, List.flatMap_singleton, hoffered, List.filterMap_cons, hpayload]
      rfl
    exact ha.append h
  cases e with
  | command c =>
      cases c with
      | handleTx payload =>
          obtain ⟨hoffered, hpayload⟩ := offered_performActs s (enqueueTx ⟨s.calls, payload⟩)
          have hreply : ∀ t e, offered ([.answer ⟨s.calls, payload⟩ t, .say e].flatMap Act.events) =
              [⟨s.calls, payload⟩] := fun t e ↦ by
            rw [List.flatMap_cons, offered_append, List.flatMap_singleton]
            exact congrArg (⟨s.calls, payload⟩ :: ·) (offered_writes e.pieces)
          change OffersPayloads (.command (.handleTx payload) :: s.txActs payload)
          unfold OffersPayloads Service.txActs
          rw [List.flatMap_cons, offered_append, List.flatMap_append, offered_append, hoffered,
            hreply, List.filterMap_cons, List.filterMap_append, hpayload]
          rfl
      | handleConfig body len =>
          refine hquiet rfl rfl ?_
          change OffersPayloads (s.configActs io body)
          unfold Service.configActs
          dsimp only
          split
          · exact (sweepActs s io _).append (say _)
          · exact (performActs s _).append (say _)
      | handleScanQ count dwell freqs =>
          refine hquiet rfl rfl ?_
          change OffersPayloads (s.scanQActs io count dwell freqs)
          unfold Service.scanQActs
          split
          · rfl
          · exact sweepActs s io _
      | handleReset => exact hquiet rfl rfl rfl
      | storeWindow => exact hquiet rfl rfl rfl
      | forceStats | writeReady | writeError => exact hquiet rfl rfl (say _)
  | greeting => exact hquiet rfl rfl ((say _).append (say _))
  | periodicStats => exact say _

theorem run_tell_offers (s : Service) (is : List ServiceStep) :
    OffersPayloads (run tell s is).2 := by
  have hoffers : Tells fun _ next ↦ OffersPayloads next.2 :=
    { stay := fun _ _ ↦ rfl
      trans := OffersPayloads.append
      server := OffersPayloads.serverActs
      poll := fun s _ ↦ OffersPayloads.performActs s _ }
  exact hoffers.run s is

/-! ## What a host gets -/

def rxPackets (frames : List Emission) : List (List UInt8) :=
  frames.filterMap fun e ↦ e.rx?.map Prod.fst

/-- A host decodes the frames, and puts the packets in them together. -/
def hostPayloads (bytes : List UInt8) : Option (List (List UInt8)) :=
  (decodeAll decodeFrame bytes).map fun frames ↦ reassemble (rxPackets frames)

theorem effects_events (acts : List Act) :
    effects (acts.flatMap Act.events) = acts.filterMap Act.effect? := by
  induction acts with
  | nil => rfl
  | cons a acts ih =>
      rw [List.flatMap_cons, effects_append, ih]
      cases a with
      | command c => cases c <;> rfl
      | effect e => rw [Act.events, effects_called]; rfl
      | say e => rw [Act.events, effects_writes]; rfl
      | _ => rfl

theorem rxPackets_emissions {acts : List Act} (h : ∀ a ∈ acts, a.own = true) :
    rxPackets ((emissions acts).map Emission.received) =
      (handedUp (acts.filterMap Act.effect?)).map fun p ↦ p.1.bytes := by
  have heffect : ∀ e : Effect, rxPackets ((onWorkerEffect e).map Emission.received) =
      (handedUp [e]).map fun p ↦ p.1.bytes := by
    intro e
    cases e with
    | onTxTerminal frame t => cases t <;> rfl
    | _ => rfl
  induction acts with
  | nil => rfl
  | cons a acts ih =>
      obtain ⟨ha, hacts⟩ := List.forall_mem_cons.mp h
      have hrest := ih hacts
      rw [emissions, List.flatMap_cons, List.map_append, rxPackets, List.filterMap_append]
      change rxPackets _ ++ rxPackets ((emissions acts).map Emission.received) = _
      rw [hrest]
      cases a with
      | effect e =>
          rw [List.filterMap_cons]
          change _ = (handedUp ([e] ++ acts.filterMap Act.effect?)).map _
          rw [handedUp_append, List.map_append, ← heffect]
          rfl
      | say e =>
          cases e with
          | rx pkt rssi => cases ha
          | _ => rfl
      | _ => rfl

/-- What a host gets while the service runs: the packets that the worker hands up. -/
theorem hostPayloads_run (s : Service) (is : List ServiceStep)
    (hreset : .command .handleReset ∉ (run tell s is).2) :
    hostPayloads (wire (run serviceStep s is).2) =
      some (reassemble ((handedUp (effects (run serviceStep s is).2)).map fun p ↦ p.1.bytes)) := by
  rw [hostPayloads, wire_decodes s is hreset, Option.map_some,
    rxPackets_emissions (run_tell_own s is), run_serviceStep_eq, effects_events]

/-! ## Two nodes -/

/-- The packets that it hears. -/
def Service.heard (s : Service) (is : List ServiceStep) : List (List UInt8) :=
  (heardPackets (effects (run serviceStep s is).2)).map fun p ↦ p.1.bytes

/-- The payloads that its host sends. -/
def Service.sent (s : Service) (is : List ServiceStep) : List (List UInt8) :=
  (run tell s is).2.filterMap Act.payload?

/-- What a node with nothing queued may put on the air are bursts of what its host
sends. -/
theorem Service.airs {s : Service} (hq : s.worker.txQ = []) {is : List ServiceStep}
    {air : List (List UInt8)} (hair : MaySend (effects (Machine.run serviceStep s is).2) air) :
    ∃ as : List Airing, air = as.flatMap Airing.packets ∧
      (as.map fun a ↦ a.frame.payload).Sublist (s.sent is) ∧
      (confirmed (effects (Machine.run serviceStep s is).2)).Sublist
        ((as.filter Airing.whole).map Airing.frame) ∧
      (∀ a ∈ as, a.StartedIn (effects (Machine.run serviceStep s is).2)) ∧
      (DistinctBursts (effects (Machine.run serviceStep s is).2) →
        (as.map Airing.key).Nodup) := by
  obtain ⟨as, haired, hframes, hconfirmed, hstarted⟩ := serviceAirs.run s is air hair
  rw [hq, List.nil_append] at hframes
  have hown : (as.map Airing.frame).Nodup :=
    (nodup_offered s is).sublist ((List.sublist_append_left _ _).trans hframes)
  have hkeys : DistinctBursts _ → (as.map Airing.key).Nodup :=
    fun hdistinct ↦ keys_nodup hdistinct hown hstarted
  refine ⟨as, haired, ?_, hconfirmed, hstarted, hkeys⟩
  have hsent : (offered (Machine.run serviceStep s is).2).map TxFrame.payload = s.sent is := by
    rw [run_serviceStep_eq]
    exact run_tell_offers s is
  have hpayloads := ((List.sublist_append_left _ _).trans hframes).map TxFrame.payload
  rw [hsent, List.map_map] at hpayloads
  exact hpayloads

/-- Packets of bursts are handed up just as they are heard. -/
theorem Service.hostPayloads_heard {s : Service} {is : List ServiceStep}
    (hreset : .command .handleReset ∉ (run tell s is).2) {as : List Airing}
    (hheard : (s.heard is).Sublist (as.flatMap Airing.packets)) :
    hostPayloads (wire (Machine.run serviceStep s is).2) = some (reassemble (s.heard is)) := by
  obtain ⟨calls, -, hevents⟩ := callsWorker.run s is
  have hfaithful := run_faithful s.worker calls
  rw [hevents] at hfaithful
  rw [hostPayloads_run s is hreset, hfaithful.2 fun p hp ↦ ?_]
  · rfl
  · exact Airing.isBurst_of_mem (hheard.subset (List.mem_map_of_mem hp))

/-- What is confirmed has been on the air whole. -/
theorem confirmed_payloads {fs : List TxFrame} {as : List Airing} {air : List (List UInt8)}
    (hfs : fs.Sublist ((as.filter Airing.whole).map Airing.frame))
    (hair : as.flatMap Airing.packets ⊆ air) :
    (fs.map TxFrame.payload).Sublist
      ((as.filter fun x ↦ x.wholeIn air).map fun x ↦ x.frame.payload) := by
  have hboth : as.filter Airing.whole =
      (as.filter fun x ↦ x.wholeIn air).filter Airing.whole := by
    rw [List.filter_filter]
    refine List.filter_congr fun x hx ↦ (Bool.and_eq_left_iff_imp.mpr fun hwhole ↦ ?_).symm
    exact x.wholeIn_mono (fun pkt hpkt ↦ hair (List.mem_flatMap.mpr ⟨x, hx, hpkt⟩)) hwhole
  have hwhole : (as.filter Airing.whole).Sublist (as.filter fun x ↦ x.wholeIn air) := by
    rw [hboth]
    exact List.filter_sublist
  have hpayloads := (hfs.trans (hwhole.map Airing.frame)).map TxFrame.payload
  rwa [List.map_map] at hpayloads

/-- A payload of two packets. -/
def wide : List UInt8 := List.replicate 496 7

def wideFirst : Packet := ⟨encodePacket 0xA80E 0 2 wide 496 0xE2A17110, by decide +kernel⟩
def wideLast : Packet := ⟨encodePacket 0xA80E 1 2 wide 496 0xE2A17110, by decide +kernel⟩
def threeBytes : Packet := ⟨encodePacket 0x501D 0 1 [1, 2, 3] 3 0x55BC801D, by decide +kernel⟩

/-- A host sends these two payloads, and its node airs them. -/
def sendTwo : List ServiceStep :=
  (([tagT, tagX, 0xF0, 1] ++ wide ++ [tagT, tagX, 3, 0, 1, 2, 3]).map fun b ↦
    .serve (.byte { byte := b, now := 10 }) {}) ++
    [1, 2].flatMap fun sec ↦ [.serve (.empty 10) {}, .poll { pollAt 4000 0 with
      burst := ⟨sec, 0, fun _ _ ↦ ⟨0, 0, [⟨10, irqTxDone⟩]⟩⟩ }]

def accepting (frame : TxFrame) : List Act :=
  [.command (.handleTx frame.payload), .answer frame .kOk,
    .say (.diag 47 (UInt32.ofNat frame.payload.length))]

/-- Every packet of the frame is done at the first attempt. -/
def airing (frame : TxFrame) (pkts : List Packet) : List Effect :=
  [.radio (.getClearIrqStatus 0), .radio (.getRxFifoLevel 0), .radio .standby] ++
    pkts.flatMap (fun pkt ↦ [.radio (.startTransmit frame pkt.bytes errNone),
      .radio (.getClearIrqStatus irqTxDone), .radio .finishTransmit]) ++
    [.radio .startReceive, .onTxTerminal frame .kOk]

def sendTwoEffects : List Effect :=
  airing ⟨0, wide⟩ [wideFirst, wideLast] ++ airing ⟨1, [1, 2, 3]⟩ [threeBytes]

theorem sendTwo_acts : (run tell node sendTwo).2 =
    accepting ⟨0, wide⟩ ++ accepting ⟨1, [1, 2, 3]⟩ ++ sendTwoEffects.map Act.effect := by
  decide +kernel

theorem sendTwo_effects : effects (run serviceStep node sendTwo).2 = sendTwoEffects := by
  rw [run_serviceStep_eq, effects_events, sendTwo_acts]
  rfl

theorem sendTwo_sent : node.sent sendTwo = [wide, [1, 2, 3]] := by
  rw [Service.sent, sendTwo_acts]
  rfl

theorem sendTwo_aired :
    airedPackets sendTwoEffects = [wideFirst, wideLast, threeBytes].map Packet.bytes := rfl

theorem sendTwo_distinct : DistinctBursts (effects (run serviceStep node sendTwo).2) := by
  rw [sendTwo_effects]
  decide +kernel

-- what a run may put on the air is not to be found by running it
attribute [local irreducible] Yields

theorem maySend_sendTwo : MaySend (effects (run serviceStep node sendTwo).2)
    ([wideFirst, wideLast, threeBytes].map Packet.bytes) := by
  rw [sendTwo_effects, ← sendTwo_aired]
  exact maySend_airedPackets _

/-- A node hears some packets in one poll. -/
def hearing (pkts : List Packet) : List ServiceStep :=
  [.serve (.empty 10) {}, .poll { pollAt 4000 0 with rx := pkts.map fun pkt ↦
    { RxStep.silent 0 with irq := irqRxDone, rxLevel := kPacketPayload, pkt := pkt } }]

/-- A packet of the first burst is lost. -/
theorem lossy_sublist : ([wideFirst, threeBytes].map Packet.bytes).Sublist
    ([wideFirst, wideLast, threeBytes].map Packet.bytes) :=
  ((List.sublist_cons_self wideLast [threeBytes]).cons_cons wideFirst).map Packet.bytes

theorem lossy_payloads :
    hostPayloads (wire (run serviceStep node (hearing [wideFirst, threeBytes])).2) =
      some [[1, 2, 3]] := by
  decide +kernel

end Serial

end RadioService
