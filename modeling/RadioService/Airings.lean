import RadioService.Assembly
import RadioService.BurstAired
import RadioService.Machine.Yields
import RadioService.TxLedger

/-!
# What a run puts on the air

Whatever the radio answers, the packets that a run of the worker puts on the air
are bursts one after the other: each of a frame of its own, in the order in which
the frames were queued, and whole if the frame is confirmed.  A start that fails
may have come too late to keep the packet off the air.
-/

namespace RadioService

open Burst Traced Machine

/-! ## Reading a log -/

/-- What an effect may put on the air. -/
def Effect.MaySend : Effect → List (List UInt8) → Prop
  | .radio (.startTransmit _ pkt st), pkts => pkts = [pkt] ∨ pkts = [] ∧ st ≠ errNone
  | _, pkts => pkts = []

/-- What a log may put on the air. -/
abbrev MaySend : List Effect → List (List UInt8) → Prop := Yields Effect.MaySend

/-- A packet that the radio has taken. -/
def Effect.aired? : Effect → Option (List UInt8)
  | .radio (.startTransmit _ pkt st) => if st = errNone then some pkt else none
  | _ => none

/-- A frame whose terminal is a `G`. -/
def Effect.confirmed? : Effect → Option TxFrame
  | .onTxTerminal frame .kOk => some frame
  | _ => none

def airedPackets (es : List Effect) : List (List UInt8) := es.filterMap Effect.aired?

def confirmed (es : List Effect) : List TxFrame := es.filterMap Effect.confirmed?

@[simp] theorem confirmed_append (es es' : List Effect) :
    confirmed (es ++ es') = confirmed es ++ confirmed es' := List.filterMap_append

theorem Effect.MaySend.eq_nil {e : Effect} {pkts : List (List UInt8)} (h : e.MaySend pkts)
    (he : e.frameless = true) : pkts = [] := by
  unfold Effect.MaySend at h
  split at h
  · cases he
  · exact h

theorem MaySend.eq_nil {es : List Effect} {pkts : List (List UInt8)} (h : MaySend es pkts)
    (hes : ∀ e ∈ es, e.frameless = true) : pkts = [] :=
  Yields.eq_nil h fun e he _ hsend ↦ hsend.eq_nil (hes e he)

/-- The packets taken, and none of those whose start failed. -/
theorem maySend_airedPackets (es : List Effect) : MaySend es (airedPackets es) := by
  have hhead : ∀ e : Effect, e.MaySend e.aired?.toList := by
    intro e
    cases e with
    | radio op =>
        cases op with
        | startTransmit frame pkt st =>
            by_cases hst : st = errNone
            · exact .inl (congrArg Option.toList (if_pos hst))
            · exact .inr ⟨congrArg Option.toList (if_neg hst), hst⟩
        | _ => rfl
    | _ => rfl
  rw [airedPackets, List.filterMap_eq_flatMap_toList]
  exact Yields.of_flatMap hhead es

/-- What is on the air has been started. -/
theorem MaySend.started {es : List Effect} {pkts : List (List UInt8)} (h : MaySend es pkts)
    {pkt : List UInt8} (hpkt : pkt ∈ pkts) :
    ∃ frame, (frame, pkt) ∈ es.filterMap Effect.started? := by
  obtain ⟨e, he, zs, hsend, hmem⟩ := Yields.exists_of_mem h hpkt
  unfold Effect.MaySend at hsend
  split at hsend
  next frame pkt' st =>
    rcases hsend with rfl | ⟨rfl, -⟩
    · rw [List.mem_singleton.mp hmem]
      exact ⟨frame, List.mem_filterMap.mpr ⟨_, he, rfl⟩⟩
    · cases hmem
  · rw [hsend] at hmem
    cases hmem

theorem Effect.confirmed?_of_frameless {e : Effect} (h : e.frameless = true) :
    e.confirmed? = none := by
  unfold Effect.confirmed?
  split
  · cases h
  · rfl

/-! ## Queues and airings -/

def Airing.whole (a : Airing) : Bool := a.wholeIn a.packets

/-- The packets of the burst, and there are some, are started in the log for its frame. -/
def Airing.StartedIn (a : Airing) (es : List Effect) : Prop :=
  a.order ≠ [] ∧ ∀ pkt ∈ a.packets, (a.frame, pkt) ∈ es.filterMap Effect.started?

theorem Airing.StartedIn.mono {a : Airing} {es es' : List Effect} (h : a.StartedIn es)
    (hes : es ⊆ es') : a.StartedIn es' := by
  refine ⟨h.1, fun pkt hpkt ↦ ?_⟩
  obtain ⟨e, he, hstart⟩ := List.mem_filterMap.mp (h.2 pkt hpkt)
  exact List.mem_filterMap.mpr ⟨e, hes he, hstart⟩

/-- While the queue goes from `q` to `q'`, the packets aired are bursts of frames
that leave it in order, and those of confirmed frames are whole. -/
def Airs (q : List TxFrame) (es : List Effect) (q' : List TxFrame) : Prop :=
  ∀ pkts, MaySend es pkts → ∃ as : List Airing, pkts = as.flatMap Airing.packets ∧
    (as.map Airing.frame ++ q').Sublist q ∧
    (confirmed es).Sublist ((as.filter Airing.whole).map Airing.frame) ∧
    ∀ a ∈ as, a.StartedIn es

namespace Airs

variable {q q' q'' : List TxFrame} {es es' : List Effect}

/-- Frames may leave the queue without a burst. -/
theorem of_silent (hq : q'.Sublist q) (hsilent : ∀ pkts, MaySend es pkts → pkts = [])
    (hconfirmed : confirmed es = []) : Airs q es q' := by
  intro pkts hsend
  exact ⟨[], hsilent pkts hsend, hq, hconfirmed ▸ List.nil_sublist _, List.forall_mem_nil _⟩

theorem stay (hq : q'.Sublist q) : Airs q [] q' := of_silent hq (fun _ h ↦ h) rfl

theorem trans (h : Airs q es q') (h' : Airs q' es' q'') : Airs q (es ++ es') q'' := by
  intro pkts hsend
  obtain ⟨sent, sent', rfl, hsent, hsent'⟩ := hsend.of_append
  obtain ⟨as, rfl, hq, hconfirmed, hstarted⟩ := h sent hsent
  obtain ⟨as', rfl, hq', hconfirmed', hstarted'⟩ := h' sent' hsent'
  refine ⟨as ++ as', List.flatMap_append.symm, ?_, ?_, ?_⟩
  · rw [List.map_append, List.append_assoc]
    exact (hq'.append_left _).trans hq
  · rw [confirmed_append, List.filter_append, List.map_append]
    exact hconfirmed.append hconfirmed'
  · refine List.forall_mem_append.mpr ⟨fun a ha ↦ ?_, fun a ha ↦ ?_⟩
    · exact (hstarted a ha).mono (List.subset_append_left es es')
    · exact (hstarted' a ha).mono (List.subset_append_right es es')

/-- Frames queued behind stay behind. -/
theorem behind (h : Airs q es q') (new : List TxFrame) : Airs (q ++ new) es (q' ++ new) := by
  intro pkts hsend
  obtain ⟨as, haired, hq, hconfirmed, hstarted⟩ := h pkts hsend
  refine ⟨as, haired, ?_, hconfirmed, hstarted⟩
  rw [← List.append_assoc]
  exact hq.append_right new

end Airs

/-- `m` takes the frames it airs off the queue. -/
def AirsQueue {α : Type} (m : Work α) : Prop :=
  ∀ w, Airs w.txQ (m.run w).events (m.run w).state.txQ

namespace AirsQueue

variable {α β : Type}

theorem of_frameless {m : Work α} (hm : Frameless m) : AirsQueue m := by
  intro w
  obtain ⟨hq, hlog⟩ := hm w
  have hevents : ∀ e ∈ (m.run w).events, e.frameless = true := by
    intro e he
    obtain ⟨p, hp, rfl⟩ := List.mem_map.mp he
    exact (hlog p hp).2
  rw [hq]
  refine Airs.of_silent (List.Sublist.refl _) (fun _ hsend ↦ hsend.eq_nil hevents) ?_
  exact List.filterMap_eq_nil_iff.mpr fun e he ↦ Effect.confirmed?_of_frameless (hevents e he)

theorem bind {m : Work α} {g : α → Work β} (hm : AirsQueue m) (hg : ∀ a, AirsQueue (g a)) :
    AirsQueue (m >>= g) := by
  intro w
  rw [run_bind, Outcome.events_prepend, Outcome.prepend_state]
  exact (hm w).trans (hg (m.run w).val (m.run w).state)

theorem pure (a : α) : AirsQueue (Pure.pure a) := of_frameless (Frame.pure a)

theorem read : AirsQueue read := of_frameless Frame.read

theorem ite {c : Prop} [Decidable c] {m n : Work α} (hm : AirsQueue m) (hn : AirsQueue n) :
    AirsQueue (if c then m else n) := by
  split <;> assumption

end AirsQueue

/-! ## Bursts -/

theorem Attempt.sends {a : Attempt} {frame : TxFrame} {pkt : List UInt8} {k : ℕ}
    {pkts : List (List UInt8)} (h : MaySend (a.effects frame pkt k) pkts) :
    pkts = [pkt] ∨ pkts = [] ∧ a.st ≠ errNone := by
  unfold Attempt.effects at h
  rw [List.append_cons] at h
  have hstart : MaySend [.radio (.startTransmit frame pkt a.st)] pkts := by
    refine h.of_between (fun e he _ hsend ↦ ?_) fun e he _ hsend ↦ ?_
    · split at he
      · exact hsend.eq_nil (List.mem_singleton.mp he ▸ rfl)
      · cases he
    · split at he
      · rcases List.mem_append.mp he with he | he
        · obtain ⟨p, -, rfl⟩ := List.mem_map.mp he
          exact hsend
        · cases List.mem_singleton.mp he
          exact hsend
      · cases he
  obtain ⟨sent, rest, rfl, hsent, hrest⟩ := hstart.of_cons
  cases hrest
  rw [List.append_nil]
  exact hsent

/-- The attempts at a packet put it on the air some number of times, and at least
once if the radio has taken it. -/
theorem attempts_send {frame : TxFrame} {pkt : List UInt8} {attempt : ℕ → Attempt} {ks : List ℕ}
    {pkts : List (List UInt8)}
    (h : MaySend (ks.flatMap fun k ↦ (attempt k).effects frame pkt k) pkts) :
    ∃ n, pkts = List.replicate n pkt ∧ ((∃ k ∈ ks, (attempt k).st = errNone) → 0 < n) := by
  induction ks generalizing pkts with
  | nil => exact ⟨0, h, fun ⟨_, hk, _⟩ ↦ absurd hk List.not_mem_nil⟩
  | cons k ks ih =>
      rw [List.flatMap_cons] at h
      obtain ⟨sent, rest, rfl, hsent, hrest⟩ := h.of_append
      obtain ⟨n, rfl, hpos⟩ := ih hrest
      rcases Attempt.sends hsent with rfl | ⟨rfl, hst⟩
      · exact ⟨n + 1, rfl, fun _ ↦ n.succ_pos⟩
      · refine ⟨n, rfl, fun ⟨j, hj, htaken⟩ ↦ ?_⟩
        rcases List.mem_cons.mp hj with rfl | hj
        · exact absurd htaken hst
        · exact hpos ⟨j, hj, htaken⟩

/-- A packet that is confirmed has been on the air. -/
theorem taken_of_done {attempt : ℕ → Attempt} (h : packetDone attempt 0 3 = true) :
    ∃ k ∈ attemptsMade attempt 0 3, (attempt k).st = errNone := by
  obtain ⟨k, hk, hdone⟩ := List.any_eq_true.mp h
  exact ⟨k, hk, Attempt.st_of_done hdone⟩

theorem packets_send {frame : TxFrame} {io : BurstInput} {id : UInt16} {idxs : List ℕ}
    {pkts : List (List UInt8)}
    (h : MaySend (idxs.flatMap fun idx ↦
      packetEffects frame (burstPacket frame.payload id idx) (io.attempt idx) 0 3) pkts) :
    ∃ order : List ℕ, pkts = order.map (burstPacket frame.payload id) ∧ order ⊆ idxs ∧
      ∀ idx ∈ idxs, packetDone (io.attempt idx) 0 3 = true → idx ∈ order := by
  induction idxs generalizing pkts with
  | nil => exact ⟨[], h, List.Subset.refl _, fun _ hidx ↦ absurd hidx List.not_mem_nil⟩
  | cons idx idxs ih =>
      rw [List.flatMap_cons] at h
      obtain ⟨sent, rest, rfl, hsent, hrest⟩ := h.of_append
      obtain ⟨n, rfl, hpos⟩ := attempts_send hsent
      obtain ⟨order, rfl, horder, hdone⟩ := ih hrest
      refine ⟨List.replicate n idx ++ order, ?_, ?_, ?_⟩
      · rw [List.map_append, List.map_replicate]
      · refine List.append_subset.mpr ⟨fun i hi ↦ ?_, fun i hi ↦ List.mem_cons_of_mem _ (horder hi)⟩
        exact List.eq_of_mem_replicate hi ▸ List.mem_cons_self
      · intro i hi hpacket
        rcases List.mem_cons.mp hi with rfl | hi
        · have hn := hpos (taken_of_done hpacket)
          exact List.mem_append_left _ (List.mem_replicate.mpr ⟨hn.ne', rfl⟩)
        · exact List.mem_append_right _ (hdone i hi hpacket)

theorem lt_of_mem_packetsMade {attempt : ℕ → ℕ → Attempt} {idx n i : ℕ}
    (h : i ∈ packetsMade attempt idx n) : i < idx + n := by
  induction n generalizing idx with
  | zero => cases h
  | succ n ih =>
      rw [packetsMade, List.mem_cons] at h
      rcases h with rfl | h
      · omega
      · split at h
        · have hlt := ih h
          omega
        · cases h

/-- The packets of a burst in the order in which they are put on the air, and
every one of them if the burst is confirmed. -/
theorem burst_sends {frame : TxFrame} {io : BurstInput} {id : UInt16} {pkts : List (List UInt8)}
    (hsize : badBurstSize frame.payload.length = false)
    (h : MaySend (burstEffects frame io id) pkts) :
    ∃ order : List ℕ, pkts = order.map (burstPacket frame.payload id) ∧
      (∀ idx ∈ order, idx < (burstTotal frame.payload.length).toNat) ∧
      (burstDone io frame.payload.length = true →
        ∀ idx < (burstTotal frame.payload.length).toNat, idx ∈ order) := by
  obtain ⟨order, rfl, horder, hdone⟩ := packets_send h
  have hpackets : burstPackets io frame.payload.length =
      packetsMade io.attempt 0 (burstTotal frame.payload.length).toNat := by
    rw [burstPackets, hsize, if_neg Bool.false_ne_true]
  rw [hpackets] at horder hdone
  refine ⟨order, rfl, fun idx hidx ↦ ?_, fun hburst idx hidx ↦ ?_⟩
  · have hlt := lt_of_mem_packetsMade (horder hidx)
    omega
  · obtain ⟨-, hall⟩ := Bool.and_eq_true_iff.mp hburst
    have hmem : idx ∈ List.range' 0 (burstTotal frame.payload.length).toNat :=
      List.mem_range'_1.mpr ⟨Nat.zero_le _, by omega⟩
    refine hdone idx ?_ (List.all_eq_true.mp hall idx hmem)
    rwa [packetsMade_of_allDone hall]

theorem burstEffects_confirmed (frame : TxFrame) (io : BurstInput) (id : UInt16) :
    confirmed (burstEffects frame io id) = [] := by
  refine List.filterMap_eq_nil_iff.mpr fun e he ↦ ?_
  simp only [burstEffects, packetEffects, List.mem_flatMap] at he
  obtain ⟨idx, -, k, -, he⟩ := he
  by_cases hk : k > 0 <;> by_cases hst : (io.attempt idx k).st = errNone <;>
    simp [Attempt.effects, hk, hst] at he <;> grind [Effect.confirmed?]

/-! ## The transmit queue -/

theorem armEffects_frameless (s : Settings) : ∀ e ∈ armEffects s, e.frameless = true := by
  unfold armEffects
  split
  · exact List.forall_mem_nil _
  · exact List.forall_mem_singleton.mpr rfl

theorem burstEffects_started {frame : TxFrame} {io : BurstInput} {id : UInt16}
    {p : TxFrame × List UInt8} (hp : p ∈ (burstEffects frame io id).filterMap Effect.started?) :
    p.1 = frame := by
  rw [burstEffects, List.filterMap_flatMap] at hp
  obtain ⟨idx, -, hpacket⟩ := List.mem_flatMap.mp hp
  rw [packetEffects_started] at hpacket
  rw [List.eq_of_mem_replicate hpacket]

/-- A burst takes its frame off the queue, whatever becomes of it. -/
theorem Airs.burst {frame : TxFrame} (io : BurstInput) (id : UInt16) {es : List Effect}
    (hsends : ∀ pkts, MaySend es pkts → MaySend (burstEffects frame io id) pkts)
    (hstarts : ∀ p ∈ es.filterMap Effect.started?, p.1 = frame)
    (hconfirmed : confirmed es = if burstDone io frame.payload.length then [frame] else [])
    (rest : List TxFrame) : Airs (frame :: rest) es rest := by
  cases hsize : badBurstSize frame.payload.length with
  | true =>
      have hnone : burstEffects frame io id = [] := by
        simp [burstEffects, burstPackets, hsize]
      have hfail : burstDone io frame.payload.length = false := by
        simp [burstDone, hsize]
      refine Airs.of_silent (List.sublist_cons_self frame rest) (fun pkts hsend ↦ ?_) ?_
      · have hburst := hsends pkts hsend
        rwa [hnone] at hburst
      · rw [hconfirmed, hfail, if_neg Bool.false_ne_true]
  | false =>
      intro pkts hsend
      obtain ⟨order, rfl, hbound, hwhole⟩ := burst_sends hsize (hsends pkts hsend)
      obtain ⟨htotal, hmax⟩ := length_of_burstSize hsize
      have hpos : 1 ≤ frame.payload.length := by
        rw [burstTotal_toNat hmax] at htotal
        omega
      let a : Airing := ⟨frame, id, order, ⟨hpos, hmax⟩, hbound⟩
      by_cases hnone : order = []
      · have hfail : burstDone io frame.payload.length = false := by
          refine Bool.eq_false_iff.mpr fun hdone ↦ ?_
          have hfirst := hwhole hdone 0 htotal
          rw [hnone] at hfirst
          cases hfirst
        rw [hconfirmed, hfail, hnone]
        exact ⟨[], rfl, List.sublist_cons_self frame rest, List.nil_sublist _,
          List.forall_mem_nil _⟩
      have hstarted : a.StartedIn es := by
        refine ⟨hnone, fun pkt hpkt ↦ ?_⟩
        obtain ⟨frame', hstart⟩ := hsend.started hpkt
        have hframe : frame' = frame := hstarts _ hstart
        rwa [hframe] at hstart
      refine ⟨[a], ?_, List.Sublist.refl _, ?_, List.forall_mem_singleton.mpr hstarted⟩
      · rw [List.flatMap_cons, List.flatMap_nil, List.append_nil]
        rfl
      rw [hconfirmed]
      cases hdone : burstDone io frame.payload.length with
      | false => exact List.nil_sublist _
      | true =>
          have hall : a.whole = true := by
            refine List.all_eq_true.mpr fun idx hidx ↦ ?_
            rw [List.contains_iff_mem]
            exact List.mem_map_of_mem (hwhole hdone idx (List.mem_range.mp hidx))
          rw [List.filter_cons, if_pos hall]
          exact List.Sublist.refl _

theorem AirsQueue.serviceTxQueue (io : BurstInput) : AirsQueue (serviceTxQueue io) := by
  intro w
  cases hgate : txGateClosed w with
  | true =>
      have hrun : (RadioService.serviceTxQueue io).run w = ⟨(), w, []⟩ := by
        simp [RadioService.serviceTxQueue, hgate]
      rw [hrun]
      exact Airs.stay (List.Sublist.refl _)
  | false =>
    cases hq : w.txQ with
    | nil =>
        have hrun : (RadioService.serviceTxQueue io).run w = ⟨(), w, []⟩ := by
          simp [RadioService.serviceTxQueue, popFrame, hgate, hq]
        rw [hrun]
        exact Airs.stay (hq ▸ List.Sublist.refl _)
    | cons frame rest =>
        obtain ⟨hstate, hevents⟩ := serviceTxQueue_run io hgate hq
        let w₁ : RadioWorker := { w with
          txQ := rest, st := { w.st with pendingTxValid := if rest.length > 0 then 1 else 0 } }
        obtain ⟨hval, hburst, -⟩ := burstFrame_run frame io w₁
        have hrest : ((burstFrame frame io).run w₁).state.txQ = rest :=
          congrArg Prod.snd (TxOnly.burstFrame frame io w₁).1
        rw [hstate, hrest]
        rw [hevents, hburst]
        refine Airs.burst io (burstId io.tvSec io.tvNsec w.burstIdCounter) (fun pkts hsend ↦ ?_)
          (fun p hp ↦ ?_) ?_ rest
        · rw [List.append_assoc] at hsend
          refine hsend.of_between ?_ ?_
          · exact List.forall_mem_singleton.mpr fun _ hsend ↦ hsend
          · refine List.forall_mem_append.mpr ⟨fun e he _ hsend ↦ ?_, ?_⟩
            · exact hsend.eq_nil (armEffects_frameless _ e he)
            · exact List.forall_mem_singleton.mpr fun _ hsend ↦ hsend
        · have hstart : p ∈ (burstEffects frame io
              (burstId io.tvSec io.tvNsec w.burstIdCounter)).filterMap Effect.started? := by
            simpa [Effect.started?, List.filterMap_cons, (armEffects_radio w₁.toSettings).2]
              using hp
          exact burstEffects_started hstart
        · have harm : confirmed (armEffects w₁.toSettings) = [] :=
            List.filterMap_eq_nil_iff.mpr fun e he ↦
              Effect.confirmed?_of_frameless (armEffects_frameless _ e he)
          rw [confirmed_append, confirmed_append, confirmed_append, burstEffects_confirmed, harm,
            hval]
          cases burstDone io frame.payload.length <;> rfl

/-! ## Runs -/

theorem AirsQueue.drain : AirsQueue (drainTxQ >>= reportDropped) := by
  intro w
  have hevents : ((drainTxQ >>= reportDropped).run w).events =
      w.txQ.map (Effect.onTxTerminal · .kDropped) := by
    simp [drainTxQ, reportDropped, Outcome.events, Function.comp_def]
  rw [hevents]
  refine Airs.of_silent (List.nil_sublist _) (fun pkts hsend ↦ ?_) ?_
  · refine Yields.eq_nil hsend fun e he zs hzs ↦ ?_
    obtain ⟨frame, -, rfl⟩ := List.mem_map.mp he
    exact hzs
  · refine List.filterMap_eq_nil_iff.mpr fun e he ↦ ?_
    obtain ⟨frame, -, rfl⟩ := List.mem_map.mp he
    rfl

theorem AirsQueue.pollOnce (io : PollInput) : AirsQueue (pollOnce io) := by
  have hrules : GuardRules fun m ↦ AirsQueue m :=
    Calm.rules.lift bind fun h ↦ of_frameless h.frameless
  have htick : AirsQueue (thermalTick io.nowMs io.thermal) :=
    hrules.thermalTick _ _ (of_frameless (Frame.update fun _ ↦ rfl))
      (of_frameless (readLevel_sensorOnly _).setsUp.calm.frameless) drain
  have hgated : ∀ w : RadioWorker, AirsQueue (do
      if !w.scanActive then
        RadioService.serviceTxQueue io.burst : Work Unit) :=
    fun w ↦ (serviceTxQueue io.burst).ite (pure ())
  have hrest : AirsQueue (afterScan io) := read.bind fun w ↦ (pure ()).ite <|
    (hgated w).ite <| (of_frameless (RxOnly.rxLoop _ _).frameless).bind fun _ ↦ read.bind hgated
  have hscan : AirsQueue (scanTick io.nowMs io.scanFreqSt) :=
    of_frameless (Scans.scanTick _ _).quiet.calm.frameless
  rw [pollOnce_eq]
  exact htick.bind fun _ ↦ read.bind fun w ↦ (pure ()).ite <|
    (hscan.bind fun _ ↦ hrest).ite hrest

/-- The frames that calls of the worker offer for transmission. -/
def Call.offered : Call → List TxFrame
  | .enqueueTx frame => [frame]
  | _ => []

theorem workerStep_enqueueTx (frame : TxFrame) (w : RadioWorker) :
    (workerStep w (.enqueueTx frame)).2 = [] ∧
      ((workerStep w (.enqueueTx frame)).1.txQ = w.txQ ∨
        (workerStep w (.enqueueTx frame)).1.txQ = w.txQ ++ [frame]) := by
  have hrun : workerStep w (.enqueueTx frame) =
      (((enqueueTx frame).run w).state, ((enqueueTx frame).run w).log) := by
    change (((discard (enqueueTx frame)).run w).state, ((discard (enqueueTx frame)).run w).log) = _
    rw [run_discard]
  rw [hrun]
  by_cases hrefused : enqueueRefused w = true
  · simp [enqueueTx, hrefused]
  · by_cases hfull : w.txQ.length ≥ 16 <;> simp [enqueueTx, pushFrame, hrefused, hfull]

theorem frameless_applyConfig (cfg : Config) (io : ConfigInput) :
    Frameless (Call.applyConfig cfg io).exec := by
  have hquiet : Quiet (discard (applyConfig cfg io)) :=
    Frame.discard (Quiet.rules.applyConfig cfg io)
  exact hquiet.calm.frameless

theorem frameless_startScan (p : ScanParams) (now : UInt32) (freqSt : Int16) :
    Frameless (Call.startScan p now freqSt).exec :=
  (Scans.startScan p now freqSt).quiet.calm.frameless

theorem workerStep_airs (w : RadioWorker) (c : Call) :
    Airs (w.txQ ++ c.offered) ((workerStep w c).2.map Prod.snd) (workerStep w c).1.txQ := by
  cases c with
  | applyConfig cfg io =>
      exact (List.append_nil w.txQ).symm ▸ AirsQueue.of_frameless (frameless_applyConfig cfg io) w
  | startScan p now freqSt =>
      have hairs := AirsQueue.of_frameless (frameless_startScan p now freqSt) w
      exact (List.append_nil w.txQ).symm ▸ hairs
  | pollOnce io => exact (List.append_nil w.txQ).symm ▸ AirsQueue.pollOnce io w
  | enqueueTx frame =>
      obtain ⟨hevents, hq⟩ := workerStep_enqueueTx frame w
      rw [hevents]
      apply Airs.stay
      rcases hq with hq | hq
      · rw [hq]
        exact List.sublist_append_left _ _
      · rw [hq]
        exact List.Sublist.refl _

/-- What any run of the worker puts on the air: bursts of queued frames, in the
order in which the frames were offered, and the confirmed ones whole. -/
theorem run_airs (w : RadioWorker) (calls : List Call) :
    Airs (w.txQ ++ calls.flatMap Call.offered) ((run workerStep w calls).2.map Prod.snd)
      (run workerStep w calls).1.txQ := by
  induction calls generalizing w with
  | nil => exact Airs.stay (by simp)
  | cons c calls ih =>
      rw [List.flatMap_cons, ← List.append_assoc, run_cons, List.map_append]
      exact ((workerStep_airs w c).behind _).trans (ih _)

/-! ## Headers -/

/-- What the packet says of its burst. -/
def burstOf (pkt : List UInt8) : Option Header := (airPart pkt).map Prod.fst

/-- No two frames are started under one header. -/
def DistinctBursts (es : List Effect) : Prop :=
  ∀ p ∈ es.filterMap Effect.started?, ∀ p' ∈ es.filterMap Effect.started?,
    burstOf p.2 = burstOf p'.2 → p.1 = p'.1

instance (es : List Effect) : Decidable (DistinctBursts es) :=
  inferInstanceAs (Decidable (∀ p ∈ _, ∀ p' ∈ _, _))

theorem Airing.StartedIn.exists_burstOf {a : Airing} {es : List Effect} (h : a.StartedIn es) :
    ∃ pkt, (a.frame, pkt) ∈ es.filterMap Effect.started? ∧ burstOf pkt = some a.key := by
  obtain ⟨idx, hidx⟩ := List.exists_mem_of_ne_nil _ h.1
  refine ⟨a.packet idx, h.2 _ (List.mem_map_of_mem hidx), ?_⟩
  rw [burstOf, a.airPart_packet (a.bounded idx hidx)]
  rfl

/-- The bursts of frames of their own have headers of their own. -/
theorem keys_nodup {es : List Effect} (h : DistinctBursts es) {as : List Airing}
    (hframes : (as.map Airing.frame).Nodup) (hstarted : ∀ a ∈ as, a.StartedIn es) :
    (as.map Airing.key).Nodup := by
  refine List.Nodup.map_on (fun a ha a' ha' hkey ↦ ?_) hframes.of_map
  obtain ⟨pkt, hpkt, hburst⟩ := (hstarted a ha).exists_burstOf
  obtain ⟨pkt', hpkt', hburst'⟩ := (hstarted a' ha').exists_burstOf
  have hsame : burstOf pkt = burstOf pkt' := by rw [hburst, hburst', hkey]
  exact List.inj_on_of_nodup_map hframes ha ha' (h _ hpkt _ hpkt' hsame)

end RadioService
