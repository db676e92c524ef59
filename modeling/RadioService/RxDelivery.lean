import RadioService.Quiet

/-!
# Packets read and packets handed up

The receive loop parks the packets of an unfinished burst and hands them up in
front of the last one, or when it gives up waiting.  A packet without a burst
header ends the loop at once and takes the parked packets with it.
-/

namespace RadioService

open Burst Traced

def Effect.read? : Effect → Option (Packet × Int16)
  | .radio (.readData pkt rssi st) => if st = errNone then some (pkt, rssi) else none
  | _ => none

def Effect.delivered? : Effect → Option (Packet × Int16)
  | .onRxPacket pkt rssi => some (pkt, rssi)
  | _ => none

def readPackets (log : List (RadioWorker × Effect)) : List (Packet × Int16) :=
  log.filterMap (·.2.read?)

def delivered (log : List (RadioWorker × Effect)) : List (Packet × Int16) :=
  log.filterMap (·.2.delivered?)

@[simp] theorem readPackets_append (l l' : List (RadioWorker × Effect)) :
    readPackets (l ++ l') = readPackets l ++ readPackets l' := List.filterMap_append

@[simp] theorem delivered_append (l l' : List (RadioWorker × Effect)) :
    delivered (l ++ l') = delivered l ++ delivered l' := List.filterMap_append

def isBurst (p : Packet × Int16) : Bool := (decodeHeader p.1.bytes).isSome

/-- A packet of a burst that is not its last. -/
def midBurst (p : Packet × Int16) : Bool :=
  (decodeHeader p.1.bytes).any fun hdr ↦ hdr.packetIdx.toNat + 1 < hdr.totalPackets.toNat

theorem isBurst_of_midBurst {p : Packet × Int16} (h : midBurst p = true) : isBurst p = true := by
  unfold midBurst at h
  unfold isBurst
  cases hdr : decodeHeader p.1.bytes with
  | none => simp [hdr] at h
  | some hdr => rfl

/-- No packet without a burst header right behind an unfinished burst. -/
def BurstsKept (ps : List (Packet × Int16)) : Prop :=
  ps.IsChain fun a b ↦ midBurst a = true → isBurst b = true

/-! ## Chains and parked packets -/

theorem filter_parked {q : List (Packet × Int16)} (hq : ∀ p ∈ q, midBurst p = true) :
    q.filter isBurst = q :=
  List.filter_eq_self.mpr fun p hp ↦ isBurst_of_midBurst (hq p hp)

theorem burstsKept_cons {p : Packet × Int16} {ps : List (Packet × Int16)} :
    BurstsKept (p :: ps) ↔
      (∀ b ∈ ps.head?, midBurst p = true → isBurst b = true) ∧ BurstsKept ps :=
  List.isChain_cons

/-- Parked packets in front of a packet with a burst header change nothing. -/
theorem burstsKept_parked {q ps : List (Packet × Int16)} {p : Packet × Int16}
    (hq : ∀ p ∈ q, midBurst p = true) (hp : isBurst p = true) :
    BurstsKept (q ++ p :: ps) ↔ BurstsKept (p :: ps) := by
  induction q with
  | nil => exact Iff.rfl
  | cons a q ih =>
      obtain ⟨ha, hq⟩ := List.forall_mem_cons.mp hq
      rw [List.cons_append, burstsKept_cons, ih hq]
      refine and_iff_right fun b hb _ ↦ ?_
      cases q with
      | nil => exact (Option.some_inj.mp hb) ▸ hp
      | cons a' q => exact (Option.some_inj.mp hb) ▸ isBurst_of_midBurst (hq a' (by simp))

/-- The last packet of a burst separates what is behind it. -/
theorem burstsKept_finish {q ps : List (Packet × Int16)} {p : Packet × Int16}
    (hq : ∀ p ∈ q, midBurst p = true) (hp : isBurst p = true) (hlast : midBurst p = false) :
    BurstsKept (q ++ p :: ps) ↔ BurstsKept ps := by
  rw [burstsKept_parked hq hp, burstsKept_cons]
  exact and_iff_right fun b _ hmid ↦ absurd (hlast.symm.trans hmid) (by decide)

theorem burstsKept_of_parked {q : List (Packet × Int16)} (hq : ∀ p ∈ q, midBurst p = true) :
    BurstsKept q := by
  rcases List.eq_nil_or_concat q with rfl | ⟨q, p, rfl⟩
  · exact List.isChain_nil
  · have hmem : ∀ a ∈ q, midBurst a = true := fun a ha ↦ hq a (by simp [ha])
    rw [List.concat_eq_append, burstsKept_parked hmem (isBurst_of_midBurst (hq p (by simp)))]
    exact List.isChain_singleton p

theorem burstsKept_reject {q : List (Packet × Int16)} {p : Packet × Int16}
    (hq : ∀ p ∈ q, midBurst p = true) (hp : isBurst p = false) :
    BurstsKept (q ++ [p]) ↔ q = [] := by
  rcases List.eq_nil_or_concat q with rfl | ⟨q, a, rfl⟩
  · exact iff_of_true (List.isChain_singleton p) rfl
  · have ha : midBurst a = true := hq a (by simp)
    have hmem : ∀ a ∈ q, midBurst a = true := fun a ha ↦ hq a (by simp [ha])
    rw [List.concat_eq_append, List.append_assoc, List.singleton_append,
      burstsKept_parked hmem (isBurst_of_midBurst ha), burstsKept_cons]
    refine iff_of_false (fun h ↦ ?_) (by simp)
    exact absurd (hp.symm.trans (h.1 p rfl ha)) (by decide)

/-! ## One turn of the loop -/

/-- From any state, `Q` holds of what `m` returns, what it has read and what it
has handed up. -/
def Hears {α : Type} (Q : α → List (Packet × Int16) → List (Packet × Int16) → Prop)
    (m : Work α) : Prop :=
  ∀ w, Q (m.run w).val (readPackets (m.run w).log) (delivered (m.run w).log)

def Effect.deaf : Effect → Bool
  | .radio (.readData _ _ _) | .onRxPacket _ _ => false
  | _ => true

abbrev Deaf {α : Type} (m : Work α) : Prop :=
  Frame (fun _ : RadioWorker ↦ ()) (fun _ e ↦ e.deaf = true) m

theorem Effect.read?_of_deaf {e : Effect} (h : e.deaf = true) : e.read? = none := by
  unfold Effect.read?
  split
  · cases h
  · rfl

theorem Effect.delivered?_of_deaf {e : Effect} (h : e.deaf = true) : e.delivered? = none := by
  unfold Effect.delivered?
  split
  · cases h
  · rfl

theorem Deaf.log {α : Type} {m : Work α} (hm : Deaf m) (w : RadioWorker) :
    readPackets (m.run w).log = [] ∧ delivered (m.run w).log = [] :=
  ⟨List.filterMap_eq_nil_iff.mpr fun p hp ↦ Effect.read?_of_deaf ((hm w).2 p hp).2,
    List.filterMap_eq_nil_iff.mpr fun p hp ↦ Effect.delivered?_of_deaf ((hm w).2 p hp).2⟩

namespace Hears

variable {α β : Type} {Q : α → List (Packet × Int16) → List (Packet × Int16) → Prop}

theorem pure {v : α} (h : Q v [] []) : Hears Q (Pure.pure v) := fun _ ↦ h

theorem ite {c : Prop} [Decidable c] {m n : Work α} (hm : c → Hears Q m) (hn : ¬c → Hears Q n) :
    Hears Q (if c then m else n) := by
  split
  · exact hm ‹_›
  · exact hn ‹_›

theorem bind {P : β → List (Packet × Int16) → List (Packet × Int16) → Prop} {m : Work β}
    {g : β → Work α} (hm : Hears P m)
    (hg : ∀ v rs ds, P v rs ds → Hears (fun v' rs' ds' ↦ Q v' (rs ++ rs') (ds ++ ds')) (g v)) :
    Hears Q (m >>= g) := by
  intro w
  rw [run_bind, Outcome.prepend_log, readPackets_append, delivered_append]
  exact hg _ _ _ (hm w) (m.run w).state

/-- A program that neither reads nor hands up, in front. -/
theorem behind {m : Work β} {g : β → Work α} (hm : Deaf m) (hg : ∀ v, Hears Q (g v)) :
    Hears Q (m >>= g) := by
  refine bind (P := fun _ rs ds ↦ rs = [] ∧ ds = []) (Deaf.log hm) ?_
  rintro v _ _ ⟨rfl, rfl⟩
  exact hg v

theorem of_deaf {m : Work α} (hm : Deaf m) (h : ∀ v, Q v [] []) : Hears Q m := by
  intro w
  rw [(hm.log w).1, (hm.log w).2]
  exact h _

theorem call {op : RadioOp} {m : Work α} (h : (Effect.radio op).deaf = true) (hm : Hears Q m) :
    Hears Q (radioCall op >>= fun _ ↦ m) :=
  behind (Frame.issue fun _ ↦ h) fun _ ↦ hm

theorem update {f : RadioWorker → RadioWorker} {m : Work α} (hm : Hears Q m) :
    Hears Q (Traced.update f >>= fun _ ↦ m) := fun w ↦ hm (f w)

theorem arm {m : Work α} (hm : Hears Q m) : Hears Q (armReceive >>= fun _ ↦ m) := by
  refine behind ?_ fun _ ↦ hm
  exact Frame.comp (fun _ ↦ ()) (fun _ _ he ↦ he) (Moves.armReceive (k := Effect.deaf) rfl)

theorem deliver {ps : List (Packet × Int16)} {m : Work α}
    (hm : Hears (fun v rs ds ↦ Q v rs (ps ++ ds)) m) :
    Hears Q (deliver ps >>= fun _ ↦ m) := by
  refine bind (P := fun _ rs ds ↦ rs = [] ∧ ds = ps) (fun w ↦ ⟨?_, ?_⟩) ?_
  · simp [RadioService.deliver, readPackets, Effect.read?]
  · simp [RadioService.deliver, delivered, Effect.delivered?, List.filterMap_map]
  · rintro _ _ _ ⟨rfl, rfl⟩
    exact hm

theorem read {pkt : Packet} {rssi st : Int16} {m : Work α}
    (hm : Hears (fun v rs ds ↦ Q v ((if st = errNone then [(pkt, rssi)] else []) ++ rs) ds) m) :
    Hears Q (radioCall (.readData pkt rssi st) >>= fun _ ↦ m) := by
  refine bind (P := fun _ rs ds ↦ rs = (if st = errNone then [(pkt, rssi)] else []) ∧ ds = [])
    (fun w ↦ ⟨?_, rfl⟩) ?_
  · by_cases hst : st = errNone <;>
      simp [radioCall, readPackets, Effect.read?, hst]
  · rintro _ _ _ ⟨rfl, rfl⟩
    exact hm

end Hears

/-- The ways a turn ends: what comes next, what was read, what was handed up. -/
inductive Turn (l : RxLocals) :
    RxNext → List (Packet × Int16) → List (Packet × Int16) → Prop
  | wait {l' : RxLocals} (hq : l'.queue = l.queue) : Turn l (.again l') [] []
  | flush : Turn l .leave [] l.queue
  | park {p : Packet × Int16} {l' : RxLocals} (hp : midBurst p = true)
      (hq : l'.queue = l.queue ++ [p]) : Turn l (.again l') [p] []
  | finish {p : Packet × Int16} {l' : RxLocals} (hp : isBurst p = true)
      (hlast : midBurst p = false) (hq : l'.queue = []) :
      Turn l (.again l') [p] (l.queue ++ [p])
  | close {p : Packet × Int16} (hp : isBurst p = true) (hlast : midBurst p = false) :
      Turn l .leave [p] (l.queue ++ [p])
  | reject {p : Packet × Int16} (hp : isBurst p = false) : Turn l .leave [p] []

theorem Turn.congr {l l' : RxLocals} {next : RxNext} {rs ds : List (Packet × Int16)}
    (hq : l'.queue = l.queue) (h : Turn l' next rs ds) : Turn l next rs ds := by
  cases h with
  | wait h => exact .wait (h.trans hq)
  | flush => exact hq ▸ .flush
  | park hp h => exact .park hp (hq ▸ h)
  | finish hp hlast h => exact hq ▸ .finish hp hlast h
  | close hp hlast => exact hq ▸ .close hp hlast
  | reject hp => exact .reject hp

theorem rxSense_hears (i : RxStep) (l : RxLocals) :
    Hears (fun v rs ds ↦ v.2.queue = l.queue ∧ rs = [] ∧ ds = []) (rxSense i l) := by
  refine Hears.call rfl (Hears.ite (fun _ ↦ Hears.call rfl ?_) fun _ ↦ Hears.pure ⟨rfl, rfl, rfl⟩)
  exact Hears.ite (fun _ ↦ Hears.pure ⟨rfl, rfl, rfl⟩) fun _ ↦
    Hears.ite (fun _ ↦ Hears.pure ⟨rfl, rfl, rfl⟩) fun _ ↦ Hears.pure ⟨rfl, rfl, rfl⟩

theorem rxRead_hears (i : RxStep) (l : RxLocals) :
    Hears (fun v rs ds ↦ v.2.queue = l.queue ∧ rs = v.1.toList ∧ ds = []) (rxRead i l) := by
  refine Hears.call rfl (Hears.ite (fun _ ↦ ?_) fun _ ↦ Hears.ite (fun _ ↦ ?_) fun _ ↦ ?_)
  · exact Hears.update (Hears.call rfl (Hears.arm (Hears.pure ⟨rfl, rfl, rfl⟩)))
  · exact Hears.ite (fun _ ↦ Hears.call rfl (Hears.arm (Hears.pure ⟨rfl, rfl, rfl⟩)))
      fun _ ↦ Hears.pure ⟨rfl, rfl, rfl⟩
  · refine Hears.call rfl (Hears.read (Hears.ite (fun hst ↦ ?_) fun hst ↦ ?_))
    · exact Hears.update (Hears.pure (by simp [hst]))
    · exact Hears.arm (Hears.pure (by simp [hst]))

theorem rxIdle_hears (i : RxStep) (l : RxLocals) :
    Hears (fun v rs ds ↦ v.2.queue = l.queue ∧ rs = v.1.toList ∧ ds = []) (rxIdle i l) :=
  Hears.ite (fun _ ↦ Hears.update (Hears.arm (Hears.pure ⟨rfl, rfl, rfl⟩)))
    fun _ ↦ Hears.pure ⟨rfl, rfl, rfl⟩

theorem rxTail_hears (i : RxStep) (l : RxLocals) :
    Hears (fun v rs ds ↦ rs = [] ∧
      (v = .again l ∧ ds = [] ∨ v = .leave ∧ ds = l.queue)) (rxTail i l) := by
  have hleave : Hears (fun v rs ds ↦ rs = [] ∧
      (v = .again l ∧ ds = [] ∨ v = .leave ∧ ds = l.queue)) (do
        deliver l.queue
        return RxNext.leave) :=
    Hears.deliver (Hears.pure ⟨rfl, .inr ⟨rfl, List.append_nil _⟩⟩)
  refine Hears.ite (fun _ ↦ Hears.pure ⟨rfl, .inl ⟨rfl, rfl⟩⟩) fun _ ↦ Hears.ite (fun _ ↦ ?_)
    fun _ ↦ hleave
  exact Hears.call rfl (Hears.arm (Hears.update hleave))

theorem rxPacket_hears (i : RxStep) (p : Packet × Int16) (l : RxLocals) :
    Hears (fun v rs ds ↦ Turn l v ([p] ++ rs) ds) (rxPacket i p l) := by
  unfold rxPacket
  cases hdr : decodeHeader p.1.bytes with
  | none =>
      have hp : isBurst p = false := by simp [isBurst, hdr]
      exact Hears.call rfl (Hears.arm (Hears.update (Hears.pure (.reject hp))))
  | some hdr' =>
      have hp : isBurst p = true := by simp [isBurst, hdr]
      refine Hears.ite (fun hmid ↦ ?_) fun hlast ↦ ?_
      · have hmid' : midBurst p = true := by simp [midBurst, hdr, hmid]
        exact Hears.update (Hears.pure (.park hmid' rfl))
      have hlast' : midBurst p = false := by simpa [midBurst, hdr] using hlast
      refine Hears.update (Hears.update (Hears.deliver (Hears.call rfl ?_)))
      have hagain : ∀ l' : RxLocals, l'.queue = [] →
          Hears (fun v rs ds ↦ Turn l v ([p] ++ rs) (l.queue ++ [p] ++ ds))
            (pure (.again l') : Work RxNext) :=
        fun l' hl' ↦ Hears.pure (by simpa using Turn.finish hp hlast' hl')
      refine Hears.ite (fun _ ↦ hagain _ rfl) fun _ ↦ Hears.ite (fun _ ↦ hagain _ rfl) fun _ ↦ ?_
      refine Hears.call rfl fun w ↦ ?_
      obtain ⟨hrs, ⟨hv, hds⟩ | ⟨hv, hds⟩⟩ :=
        rxTail_hears i { l with inBurst := false, queue := [] } w
      · rw [hrs, hv, hds]
        simpa using Turn.finish hp hlast' rfl
      · rw [hrs, hv, hds]
        simpa using Turn.close hp hlast'

theorem rxIter_hears (i : RxStep) (l : RxLocals) : Hears (Turn l) (rxIter i l) := by
  refine Hears.bind (rxSense_hears i l) ?_
  rintro ⟨hasRx, l₁⟩ _ _ ⟨hq₁, rfl, rfl⟩
  refine Hears.ite (fun _ ↦ Hears.bind (rxRead_hears i l₁) ?_)
    fun _ ↦ Hears.bind (rxIdle_hears i l₁) ?_
  all_goals
    rintro ⟨got, l₂⟩ _ _ ⟨hq₂, rfl, rfl⟩
    have hq : l₂.queue = l.queue := hq₂.trans hq₁
    intro w
    cases got with
    | some p =>
        have hturn := rxPacket_hears i p { l₂ with checkFifoAfterRx := true } w
        have hqueue : RxLocals.queue { l₂ with checkFifoAfterRx := true } = _ := hq
        exact Turn.congr hqueue hturn
    | none =>
        obtain ⟨hrs, ⟨hv, hds⟩ | ⟨hv, hds⟩⟩ := rxTail_hears i l₂ w
        · rw [hrs, hv, hds]
          exact .wait hq
        · rw [hrs, hv, hds]
          exact Turn.congr hq .flush

@[simp] theorem silent_irq (now : UInt32) : (RxStep.silent now).irq = 0 := rfl

@[simp] theorem silent_idleLevel (now : UInt32) : (RxStep.silent now).idleLevel = 0 := rfl

@[simp] theorem silent_deadlineNow (now : UInt32) : (RxStep.silent now).deadlineNow = now := rfl

theorem before_self (now : UInt32) : before now now = false := by
  simp [before]

/-- A silent turn at the deadline ends the loop. -/
theorem rxIter_silent (l : RxLocals) :
    Hears (fun v rs ds ↦ v = .leave ∧ rs = [] ∧ ds = l.queue)
      (rxIter (.silent l.burstDeadlineMs) l) := by
  have hsense : Hears (fun v rs ds ↦ v = (false, { l with checkFifoAfterRx := false }) ∧
      rs = [] ∧ ds = []) (rxSense (.silent l.burstDeadlineMs) l) := by
    refine Hears.call rfl (Hears.ite (fun _ ↦ Hears.call rfl ?_) fun h ↦ ?_)
    · refine Hears.ite (fun h ↦ ?_) fun _ ↦
        Hears.ite (fun h ↦ ?_) fun _ ↦ Hears.pure ⟨rfl, rfl, rfl⟩
      · have hempty : ¬(0 : UInt16) ≥ kPacketPayload := by decide
        simp [hempty] at h
      · simp at h
    · simp [irqHas] at h
  refine Hears.bind hsense ?_
  rintro _ _ _ ⟨rfl, rfl, rfl⟩
  have hidle : Hears (fun v rs ds ↦ v = (none, { l with checkFifoAfterRx := false }) ∧
      rs = [] ∧ ds = [])
      (rxIdle (.silent l.burstDeadlineMs) { l with checkFifoAfterRx := false }) :=
    Hears.ite (fun h ↦ absurd h (by simp [irqHas]))
      fun _ ↦ Hears.pure ⟨rfl, rfl, rfl⟩
  refine Hears.ite (fun h ↦ absurd h (by decide)) fun _ ↦ Hears.bind hidle ?_
  rintro _ _ _ ⟨rfl, rfl, rfl⟩
  have hleave : Hears (fun v rs ds ↦ v = .leave ∧ [] ++ ([] ++ rs) = [] ∧
      [] ++ ([] ++ ds) = l.queue) (do
        deliver l.queue
        return RxNext.leave) :=
    Hears.deliver (Hears.pure ⟨rfl, rfl, List.append_nil _⟩)
  refine Hears.ite (fun h ↦ ?_) fun _ ↦ Hears.ite (fun _ ↦ ?_) fun _ ↦ hleave
  · simp [before_self] at h
  · exact Hears.call rfl (Hears.arm (Hears.update hleave))

/-! ## The loop -/

/-- All packets that have a burst header, parked or read, are handed up. -/
def AllDelivered (q rs ds : List (Packet × Int16)) : Prop := ds = (q ++ rs).filter isBurst

/-- With the packets `q` parked, a turn and what follows it deliver all exactly
if no burst is cut off. -/
theorem turn_delivers_iff {l : RxLocals} {next : RxNext} {rs rs' ds ds' : List (Packet × Int16)}
    (hq : ∀ p ∈ l.queue, midBurst p = true) (hturn : Turn l next rs ds)
    (hleave : next = .leave → rs' = [] ∧ ds' = [])
    (hagain : ∀ l', next = .again l' → (∀ p ∈ l'.queue, midBurst p = true) →
      (AllDelivered l'.queue rs' ds' ↔ BurstsKept (l'.queue ++ rs'))) :
    AllDelivered l.queue (rs ++ rs') (ds ++ ds') ↔ BurstsKept (l.queue ++ (rs ++ rs')) := by
  have hself := filter_parked hq
  cases hturn with
  | wait hq' =>
      have hrest := hagain _ rfl (hq' ▸ hq)
      rwa [hq'] at hrest
  | flush =>
      obtain ⟨rfl, rfl⟩ := hleave rfl
      refine iff_of_true ?_ ?_
      · simp [AllDelivered, hself]
      · simpa using burstsKept_of_parked hq
  | @park p l' hp hq' =>
      have hmem : ∀ a ∈ l'.queue, midBurst a = true := by
        rw [hq']
        intro a ha
        rcases List.mem_append.mp ha with ha | ha
        · exact hq a ha
        · exact List.mem_singleton.mp ha ▸ hp
      have hrest := hagain _ rfl hmem
      rw [hq'] at hrest
      simpa [AllDelivered, List.append_assoc] using hrest
  | @finish p l' hp hlast hq' =>
      have hrest := hagain _ rfl (by simp [hq'])
      rw [hq'] at hrest
      rw [List.singleton_append, burstsKept_finish hq hp hlast, AllDelivered]
      simpa [AllDelivered, hself, hp] using hrest
  | @close p hp hlast =>
      obtain ⟨rfl, rfl⟩ := hleave rfl
      rw [List.append_nil, burstsKept_finish hq hp hlast]
      refine iff_of_true ?_ List.isChain_nil
      simp [AllDelivered, hself, hp]
  | @reject p hp =>
      -- the parked packets are lost with the queue
      obtain ⟨rfl, rfl⟩ := hleave rfl
      rw [List.append_nil, burstsKept_reject hq hp, AllDelivered]
      simp [hself, hp, eq_comm]

theorem rxLoop_delivers_iff (is : List RxStep) (l : RxLocals)
    (hq : ∀ p ∈ l.queue, midBurst p = true) :
    Hears (fun _ rs ds ↦ AllDelivered l.queue rs ds ↔ BurstsKept (l.queue ++ rs))
      (rxLoop is l) := by
  induction is generalizing l with
  | nil =>
      intro w
      obtain ⟨-, hrs, hds⟩ := rxIter_silent l w
      have hlog : ((rxLoop [] l).run w).log =
          ((rxIter (.silent l.burstDeadlineMs) l).run w).log := by
        simp [rxLoop]
      rw [hlog, hrs, hds]
      refine iff_of_true ?_ ?_
      · simp [AllDelivered, filter_parked hq]
      · simpa using burstsKept_of_parked hq
  | cons i is ih =>
      refine Hears.bind (rxIter_hears i l) fun next rs ds hturn w ↦ ?_
      refine turn_delivers_iff hq hturn ?_ ?_
      · rintro rfl
        exact ⟨rfl, rfl⟩
      · rintro l' rfl hq'
        exact ih l' hq' w

/-! ## The poll -/

theorem Effect.deaf_of_quiet {e : Effect} (h : e.quiet = true) : e.deaf = true := by
  unfold Effect.deaf
  split <;> first | cases h | rfl

theorem Effect.deaf_of_transmitting {frame : TxFrame} {e : Effect}
    (h : e.transmitting frame = true) : e.deaf = true := by
  unfold Effect.deaf
  split <;> first | cases h | rfl

theorem Calm.deaf {α : Type} {m : Work α} (h : Calm m) : Deaf m :=
  Frame.comp (f := RadioWorker.txQ) (fun _ ↦ ()) (fun _ _ ↦ Effect.deaf_of_quiet) h

theorem TxOnly.deaf {frame : TxFrame} {α : Type} {m : Work α} (h : TxOnly frame m) : Deaf m :=
  Frame.comp (f := fun w : RadioWorker ↦ (w.toSettings, w.txQ)) (fun _ ↦ ())
    (fun _ _ ↦ Effect.deaf_of_transmitting) h

namespace Deaf

theorem thermalTick (now : UInt32) (io : ThermalInput) : Deaf (thermalTick now io) := by
  have hrules : GuardRules fun m ↦ Deaf m := Calm.rules.lift Frame.bind Calm.deaf
  exact hrules.thermalTick now io (Frame.update fun _ ↦ rfl)
    (readLevel_sensorOnly io.reading).setsUp.calm.deaf (drain_frame (fun _ ↦ rfl) fun _ _ ↦ rfl)

theorem serviceTxQueue (io : BurstInput) : Deaf (serviceTxQueue io) :=
  serviceTxQueue_frame (fun _ _ _ ↦ rfl) (fun frame ↦ (TxOnly.burstFrame frame io).deaf)
    fun _ _ _ ↦ rfl

end Deaf

theorem afterScan_delivers_iff (io : PollInput) :
    Hears (fun _ rs ds ↦ AllDelivered [] rs ds ↔ BurstsKept rs) (afterScan io) := by
  have hnone : AllDelivered [] [] [] ↔ BurstsKept [] := iff_of_true rfl List.isChain_nil
  have hgated : ∀ w : RadioWorker, Deaf (do
      if !w.scanActive then
        serviceTxQueue io.burst : Work Unit) :=
    fun w ↦ (Deaf.serviceTxQueue io.burst).ite (Frame.pure ())
  refine Hears.behind Frame.read fun w ↦ Hears.ite (fun _ ↦ Hears.pure hnone) fun _ ↦
    Hears.ite (fun _ ↦ Hears.of_deaf (hgated w) fun _ ↦ hnone) fun _ ↦ ?_
  refine Hears.bind (rxLoop_delivers_iff io.rx {} (by simp)) fun _ rs ds hrx ↦ ?_
  refine Hears.of_deaf (Frame.read.bind hgated) fun _ ↦ ?_
  rwa [List.append_nil, List.append_nil]

/-- The packets that one poll hands up are those it has read that have a burst
header, in order and with their signal strength, exactly if no packet without
one comes right behind an unfinished burst. -/
theorem rx_delivered_iff (w : RadioWorker) (io : PollInput) :
    let log := ((pollOnce io).run w).log
    delivered log = (readPackets log).filter isBurst ↔ BurstsKept (readPackets log) := by
  have hpoll : Hears (fun _ rs ds ↦ AllDelivered [] rs ds ↔ BurstsKept rs) (pollOnce io) := by
    rw [pollOnce_eq]
    refine Hears.behind (Deaf.thermalTick _ _) fun _ ↦ Hears.behind Frame.read fun _ ↦
      Hears.ite (fun _ ↦ Hears.pure (iff_of_true rfl List.isChain_nil)) fun _ ↦
        Hears.ite (fun _ ↦ ?_) fun _ ↦ afterScan_delivers_iff io
    exact Hears.behind (Scans.scanTick _ _).quiet.calm.deaf fun _ ↦ afterScan_delivers_iff io
  exact hpoll w

/-- The first of two packets of a burst, then a packet without a burst header:
both are read and none is handed up. -/
theorem rx_parked_lost :
    let header : Header := ⟨kMagic, 7, 0, 2, 600, 0⟩
    let first : Packet := ⟨header.toBytes ++ List.replicate 495 0, by
      rw [List.length_append, List.length_replicate]; rfl⟩
    let foreign : Packet := (RxStep.silent 0).pkt
    let turn (pkt : Packet) : RxStep :=
      { RxStep.silent 0 with irq := irqRxDone, rxLevel := kPacketPayload, pkt := pkt }
    let log := ((pollOnce { pollAt 4000 0 with rx := [turn first, turn foreign] }).run
      booted.state).log
    readPackets log = [(first, 0), (foreign, 0)] ∧ isBurst (first, 0) = true ∧
      delivered log = [] ∧ delivered log ≠ (readPackets log).filter isBurst :=
  ⟨by decide +kernel, by decide +kernel, by decide +kernel, by decide +kernel⟩

end RadioService
