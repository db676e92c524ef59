import RadioService.Assembly
import RadioService.SimThreads

/-!
# The simulator's bursts, with its threads taking turns

The echo of a frame and the generator's bursts are made in two threads, and both give
out identifiers without a lock.  As long as no burst begins within another, the packets
of a run are those of whole bursts one after the other, and a host puts every one of
them together again.
-/

namespace RadioService.Serial

open Burst Machine SimDevice

/-! ## One burst after the other -/

/-- What a burst may carry. -/
def Sendable (payload : List UInt8) : Prop := 1 ≤ payload.length ∧ payload.length ≤ simMaxPayload

/-- `send_burst` in one go; of the device it takes the last identifier only. -/
def sendAtOnce : Step ℕ (List UInt8) SimPacket := fun id payload ↦
  match sendBurst { burstId := id } payload with
  | some (d, packets) => (d.burstId, packets)
  | none => (id, [])

theorem sendAtOnce_eq {payload : List UInt8} (h : Sendable payload) (id : ℕ) :
    sendAtOnce id payload =
      (id % 65535 + 1, (List.range (burstTotal payload.length).toNat).map
        (servicePacket payload (id % 65535 + 1))) := by
  obtain ⟨hpos, hmax⟩ := h
  have htotal : (payload.length + CHUNK - 1) / CHUNK = (burstTotal payload.length).toNat :=
    (burstTotal_toNat hmax).symm
  have hid : id % 65535 + 1 ≤ 65535 := Nat.mod_lt id (by decide)
  have hpackets := packets_eq hpos hmax hid
  rw [sendAtOnce, sendBurst, htotal]
  dsimp only
  rw [hpackets]
  rfl

/-- The burst as a host sees it. -/
def Sendable.airing {payload : List UInt8} (h : Sendable payload) (id : ℕ) : Airing where
  frame := ⟨0, payload⟩
  id := UInt16.ofNat id
  order := List.range (burstTotal payload.length).toNat
  size := h
  bounded := fun _ hidx ↦ List.mem_range.mp hidx

theorem Sendable.wholeBurst_airing {payload : List UInt8} (h : Sendable payload) (id : ℕ) :
    wholeBurst (h.airing id).key (h.airing id).parts = true := by
  refine List.all_eq_true.mpr fun idx hidx ↦ List.any_eq_true.mpr ?_
  exact ⟨(idx, burstChunk payload idx), List.mem_map.mpr ⟨idx, hidx, rfl⟩, beq_self_eq_true idx⟩

/-- The identifier behind another one is another one. -/
theorem ofNat_next_ne (id : ℕ) :
    UInt16.ofNat (id % 65535 + 1) ≠ UInt16.ofNat ((id % 65535 + 1) % 65535 + 1) := by
  intro h
  have hnat := congrArg UInt16.toNat h
  rw [UInt16.toNat_ofNat', UInt16.toNat_ofNat'] at hnat
  omega

theorem run_sendAtOnce_airings {payloads : List (List UInt8)} (h : ∀ p ∈ payloads, Sendable p)
    (id : ℕ) :
    ∃ as : List Airing, as.map (fun a ↦ a.frame.payload) = payloads ∧
      (run sendAtOnce id payloads).2.map SimPacket.air = as.flatMap Airing.packets ∧
      (as.IsChain fun a a' ↦ a.key ≠ a'.key) ∧
      (∀ a ∈ as, wholeBurst a.key a.parts = true) ∧
      ∀ a ∈ as.head?, a.key.burstId = UInt16.ofNat (id % 65535 + 1) := by
  induction payloads generalizing id with
  | nil => exact ⟨[], rfl, rfl, .nil, List.forall_mem_nil _, nofun⟩
  | cons payload payloads ih =>
      have hp := h payload List.mem_cons_self
      obtain ⟨as, hmap, hair, hkeys, hwhole, hhead⟩ :=
        ih (fun p hp ↦ h p (List.mem_cons_of_mem payload hp)) (id % 65535 + 1)
      let a := hp.airing (id % 65535 + 1)
      refine ⟨a :: as, congrArg (payload :: ·) hmap, ?_, ?_, ?_, ?_⟩
      · have hpackets : ((List.range (burstTotal payload.length).toNat).map
            (servicePacket payload (id % 65535 + 1))).map SimPacket.air = a.packets := List.map_map
        rw [run_cons, sendAtOnce_eq hp, List.map_append, hair, hpackets, List.flatMap_cons]
      · refine hkeys.cons fun a' ha' hsame ↦ ofNat_next_ne id ?_
        rw [← hhead a' ha', ← hsame]
        rfl
      · exact List.forall_mem_cons.mpr ⟨hp.wholeBurst_airing _, hwhole⟩
      · intro a' ha'
        obtain rfl : a = a' := Option.some_inj.mp ha'
        rfl

/-- Bursts sent one after the other are put together by a host, every one of them. -/
theorem reassemble_sendAtOnce {payloads : List (List UInt8)} (h : ∀ p ∈ payloads, Sendable p)
    (id : ℕ) : reassemble ((run sendAtOnce id payloads).2.map SimPacket.air) = payloads := by
  obtain ⟨as, hmap, hair, hkeys, hwhole, -⟩ := run_sendAtOnce_airings h id
  rw [hair, reassemble_whole hkeys hwhole, hmap]

/-! ## A burst in progress -/

namespace SimEvent

/-- A terminal is followed by the echo of its frame. -/
def begun? : SimEvent → Option (List UInt8)
  | terminal payload | generated payload => some payload
  | _ => none

def packet? : SimEvent → Option SimPacket
  | packet p => some p
  | _ => none

end SimEvent

namespace SimBurst

def packetsFrom (id idx : ℕ) (b : SimBurst) : List SimPacket :=
  (List.range' idx (b.total - idx)).map (servicePacket b.payload id)

/-- What a burst that no other one meets has still to do: the identifier it leaves, and
its packets. -/
def left (id : ℕ) (b : SimBurst) : ℕ × List SimPacket :=
  match b.stage with
  | .load | .store _ => sendAtOnce id b.payload
  | .pack idx => (id, b.packetsFrom id idx)
  | .send idx p => (id, p :: b.packetsFrom id (idx + 1))

/-- No other burst has met this one. -/
def Fits (id : ℕ) (b : SimBurst) : Prop :=
  Sendable b.payload ∧
    match b.stage with
    | .load => True
    | .store old => old = id
    | .pack idx | .send idx _ => idx < b.total ∧ id ≤ 65535

end SimBurst

namespace BurstNext

def left (id : ℕ) : BurstNext → ℕ × List SimPacket
  | on b => b.left id
  | done | dead => (id, [])

def Fits (id : ℕ) : BurstNext → Prop
  | on b => b.Fits id
  | done => True
  | dead => False

end BurstNext

theorem total_eq {payload : List UInt8} (h : Sendable payload) (stage : BurstStage) :
    SimBurst.total ⟨payload, stage⟩ = (burstTotal payload.length).toNat :=
  (burstTotal_toNat h.2).symm

theorem packet_eq {payload : List UInt8} (h : Sendable payload) {id idx : ℕ} (hid : id ≤ 65535)
    (stage : BurstStage) (hidx : idx < SimBurst.total ⟨payload, stage⟩) :
    SimBurst.packet id ⟨payload, stage⟩ idx = some (servicePacket payload id idx) := by
  have htotal := total_eq h stage
  rw [htotal] at hidx
  have hair := airPacket_eq h.2 hid hidx
  have hlen : (burstPacket payload (UInt16.ofNat id) idx).length < 65536 := by
    rw [(burstPacket_carries h.1 h.2 hidx).length]
    decide
  have hrssi : (-40 : Int16).toInt = -40 := by decide
  have hframe := rxPacket_eq hlen (-40)
  rw [hrssi] at hframe
  rw [SimBurst.packet, htotal]
  dsimp only
  rw [hair, Option.bind_eq_bind, Option.bind_some, hframe, Option.bind_some]
  rfl

theorem packetsFrom_cons {payload : List UInt8} {stage : BurstStage} {id idx : ℕ}
    (h : idx < SimBurst.total ⟨payload, stage⟩) (stage' : BurstStage) :
    SimBurst.packetsFrom id idx ⟨payload, stage⟩ =
      servicePacket payload id idx :: SimBurst.packetsFrom id (idx + 1) ⟨payload, stage'⟩ := by
  obtain ⟨n, hn⟩ := Nat.exists_eq_add_of_lt h
  have hfrom : SimBurst.total ⟨payload, stage⟩ - idx = n + 1 := by omega
  have hrest : SimBurst.total ⟨payload, stage'⟩ - (idx + 1) = n := by
    change SimBurst.total ⟨payload, stage⟩ - (idx + 1) = n
    omega
  rw [SimBurst.packetsFrom, SimBurst.packetsFrom, hfrom, hrest]
  rfl

/-- An access of a burst that no other one meets does a part of what is left of it. -/
theorem turn_left {id : ℕ} {b : SimBurst} (h : b.Fits id) :
    (b.turn id).2.1.Fits (b.turn id).1 ∧
      (b.left id).1 = ((b.turn id).2.1.left (b.turn id).1).1 ∧
      (b.left id).2 =
        (b.turn id).2.2.filterMap SimEvent.packet? ++ ((b.turn id).2.1.left (b.turn id).1).2 := by
  obtain ⟨payload, stage⟩ := b
  obtain ⟨hp, hstage⟩ := h
  change Sendable payload at hp
  cases stage with
  | load => exact ⟨⟨hp, rfl⟩, rfl, rfl⟩
  | store old =>
      obtain rfl : old = id := hstage
      have htotal := total_eq hp (.pack 0)
      have hpos : 0 < SimBurst.total ⟨payload, .pack 0⟩ :=
        htotal ▸ (burstTotal_bounds hp.1 hp.2).1
      have hne : ¬ SimBurst.total ⟨payload, .store old⟩ = 0 := hpos.ne'
      have hturn : SimBurst.turn old ⟨payload, .store old⟩ =
          (old % 65535 + 1, .on ⟨payload, .pack 0⟩, []) := by
        rw [SimBurst.turn]
        dsimp only
        rw [if_neg hne]
      have hleft : SimBurst.left old ⟨payload, .store old⟩ =
          (old % 65535 + 1, SimBurst.packetsFrom (old % 65535 + 1) 0 ⟨payload, .pack 0⟩) := by
        change sendAtOnce old payload = _
        rw [sendAtOnce_eq hp, SimBurst.packetsFrom, htotal, List.range_eq_range']
        rfl
      rw [hturn, hleft]
      exact ⟨⟨hp, hpos, Nat.mod_lt old (by decide)⟩, rfl, rfl⟩
  | pack idx =>
      obtain ⟨hidx, hid⟩ : idx < SimBurst.total ⟨payload, .pack idx⟩ ∧ id ≤ 65535 := hstage
      rw [turn_pack, packet_eq hp hid _ hidx]
      exact ⟨⟨hp, hidx, hid⟩, rfl, packetsFrom_cons hidx _⟩
  | send idx p =>
      obtain ⟨hidx, hid⟩ : idx < SimBurst.total ⟨payload, .send idx p⟩ ∧ id ≤ 65535 := hstage
      by_cases hnext : idx + 1 < SimBurst.total ⟨payload, .send idx p⟩
      · have hturn : SimBurst.turn id ⟨payload, .send idx p⟩ =
            (id, .on ⟨payload, .pack (idx + 1)⟩, [.packet p]) := by
          rw [SimBurst.turn]
          dsimp only
          rw [if_pos hnext]
        rw [hturn]
        exact ⟨⟨hp, hnext, hid⟩, rfl, rfl⟩
      · have hturn : SimBurst.turn id ⟨payload, .send idx p⟩ = (id, .done, [.packet p]) := by
          rw [SimBurst.turn]
          dsimp only
          rw [if_neg hnext]
        have hlast : SimBurst.total ⟨payload, .send idx p⟩ - (idx + 1) = 0 := by omega
        have hnone : SimBurst.packetsFrom id (idx + 1) ⟨payload, .send idx p⟩ = [] := by
          rw [SimBurst.packetsFrom, hlast]
          rfl
        rw [hturn]
        exact ⟨trivial, rfl, congrArg (p :: ·) hnone⟩

/-! ## The rig -/

def TxStage.burst? : TxStage → Option SimBurst
  | echo b => some b
  | _ => none

def GeneratorStage.burst? : GeneratorStage → Option SimBurst
  | burst b => some b
  | _ => none

/-- The parser takes no payload that a burst cannot carry. -/
def SimParser.Sized (d : SimParser) : Prop :=
  d.state = .payload → 1 ≤ d.frameLen ∧ d.frameLen ≤ simMaxPayload

namespace SimRig

/-- The bursts in progress. -/
def bursts (r : SimRig) : List SimBurst := r.tx.burst?.toList ++ r.generator.burst?.toList

def left (r : SimRig) : ℕ × List SimPacket :=
  match r.bursts with
  | [] => (r.burstId, [])
  | b :: _ => b.left r.burstId

/-- A turn that begins a burst finds none in progress. -/
def Apart (r : SimRig) (i : SimTurn) : Prop :=
  (simTurn r i).2.filterMap SimEvent.begun? ≠ [] → r.bursts = []

instance (r : SimRig) (i : SimTurn) : Decidable (r.Apart i) := inferInstanceAs (Decidable (_ → _))

structure Sound (r : SimRig) : Prop where
  sized : r.parser.Sized
  owed : ∀ p ∈ r.owed, Sendable p
  bursts : r.bursts = [] ∨ ∃ b, r.bursts = [b] ∧ b.Fits r.burstId
  tx : r.tx ≠ .dead
  generator : r.generator ≠ .dead

end SimRig

namespace SimRig.Sound

variable {r : SimRig} {b : SimBurst}

theorem echo (hr : r.Sound) (htx : r.tx = .echo b) :
    r.bursts = [b] ∧ b.Fits r.burstId ∧ r.generator.burst?.toList = [] := by
  have hcons : r.bursts = b :: r.generator.burst?.toList := by
    rw [SimRig.bursts, htx]
    rfl
  rcases hr.bursts with hnone | ⟨b', hb', hfits⟩
  · rw [hcons] at hnone
    cases hnone
  · obtain ⟨rfl, hrest⟩ := List.cons.inj (hcons.symm.trans hb')
    exact ⟨hb', hfits, hrest⟩

theorem generated (hr : r.Sound) (hgenerator : r.generator = .burst b) :
    r.bursts = [b] ∧ b.Fits r.burstId ∧ r.tx.burst?.toList = [] := by
  have hsnoc : r.bursts = r.tx.burst?.toList ++ [b] := by
    rw [SimRig.bursts, hgenerator]
    rfl
  rcases hr.bursts with hnone | ⟨b', hb', hfits⟩
  · rw [hnone] at hsnoc
    cases (List.append_eq_nil_iff.mp hsnoc.symm).2
  · rcases List.append_eq_singleton_iff.mp (hsnoc.symm.trans hb') with ⟨hrest, hb⟩ | ⟨-, hb⟩
    · obtain rfl := List.singleton_inj.mp hb
      exact ⟨hb', hfits, hrest⟩
    · cases hb

end SimRig.Sound

/-- What a part of a run does to the bursts. -/
structure Sends (r : SimRig) (next : SimRig × List SimEvent) : Prop where
  sound : next.1.Sound
  sendable : ∀ p ∈ next.2.filterMap SimEvent.begun?, Sendable p
  id : next.1.left.1 = (run sendAtOnce r.left.1 (next.2.filterMap SimEvent.begun?)).1
  packets : next.2.filterMap SimEvent.packet? ++ next.1.left.2 =
    r.left.2 ++ (run sendAtOnce r.left.1 (next.2.filterMap SimEvent.begun?)).2

namespace Sends

variable {r r' r'' : SimRig} {es es' : List SimEvent}

/-- No burst gets any further. -/
theorem idle (hr' : r'.Sound) (hbursts : r'.bursts = r.bursts) (hid : r'.burstId = r.burstId)
    (hes : ∀ e ∈ es, e.begun? = none ∧ e.packet? = none) : Sends r (r', es) := by
  have hbegun : es.filterMap SimEvent.begun? = [] :=
    List.filterMap_eq_nil_iff.mpr fun e he ↦ (hes e he).1
  have hpackets : es.filterMap SimEvent.packet? = [] :=
    List.filterMap_eq_nil_iff.mpr fun e he ↦ (hes e he).2
  have hleft : r'.left = r.left := by rw [SimRig.left, SimRig.left, hbursts, hid]
  refine ⟨hr', ?_, ?_, ?_⟩
  · rw [hbegun]
    exact List.forall_mem_nil _
  · rw [hbegun, hleft]
    rfl
  · rw [hbegun, hpackets, hleft]
    exact (List.append_nil _).symm

theorem trans (h : Sends r (r', es)) (h' : Sends r' (r'', es')) : Sends r (r'', es ++ es') := by
  have hid : r'.left.1 = _ := h.id
  have hpackets : _ = r.left.2 ++ _ := h.packets
  refine ⟨h'.sound, ?_, ?_, ?_⟩
  · rw [List.filterMap_append]
    exact List.forall_mem_append.mpr ⟨h.sendable, h'.sendable⟩
  · rw [List.filterMap_append, run_append, h'.id, hid]
  · rw [List.filterMap_append, List.filterMap_append, run_append, List.append_assoc, h'.packets,
      ← List.append_assoc, hpackets, hid, List.append_assoc]

/-- A burst is begun. -/
theorem begin {e : SimEvent} {payload : List UInt8} (hr' : r'.Sound)
    (hbursts : r.bursts = []) (hb : r'.bursts = [⟨payload, .load⟩]) (hid : r'.burstId = r.burstId)
    (hp : Sendable payload) (hbegun : e.begun? = some payload) (hpacket : e.packet? = none) :
    Sends r (r', [e]) := by
  have hbegun' : [e].filterMap SimEvent.begun? = [payload] := List.filterMap_cons_some hbegun
  have hpackets : [e].filterMap SimEvent.packet? = [] := List.filterMap_cons_none hpacket
  have hleft : r.left = (r.burstId, []) := by rw [SimRig.left, hbursts]
  have hleft' : r'.left = sendAtOnce r.burstId payload := by
    rw [SimRig.left, hb, ← hid]
    rfl
  refine ⟨hr', ?_, ?_, ?_⟩
  · rw [hbegun']
    exact List.forall_mem_singleton.mpr hp
  · rw [hbegun', hleft, hleft']
    rfl
  · rw [hbegun', hpackets, hleft, hleft']
    exact (List.append_nil _).symm

/-- The burst in progress gets further, or is through. -/
theorem turn {b : SimBurst} {next : BurstNext} {id : ℕ} (hr' : r'.Sound)
    (hbursts : r.bursts = [b]) (hb : b.Fits r.burstId) (hturn : b.turn r.burstId = (id, next, es))
    (hnext : r'.left = next.left id) : Sends r (r', es) := by
  have hleft : r.left = b.left r.burstId := by rw [SimRig.left, hbursts]
  obtain ⟨-, hleftId, hpackets⟩ := turn_left hb
  rw [hturn] at hleftId hpackets
  have hbegun : es.filterMap SimEvent.begun? = [] := by
    refine List.filterMap_eq_nil_iff.mpr fun e he ↦ ?_
    have hin : e ∈ (b.turn r.burstId).2.2 := hturn ▸ he
    obtain ⟨p, rfl⟩ := turn_packets _ _ _ hin
    rfl
  refine ⟨hr', ?_, ?_, ?_⟩
  · rw [hbegun]
    exact List.forall_mem_nil _
  · rw [hbegun, hnext, hleft]
    exact hleftId.symm
  · rw [hbegun, hnext, hleft]
    exact hpackets.symm.trans (List.append_nil _).symm

end Sends

/-! ## The parser -/

/-- A byte asks for a payload only behind a length that was looked at. -/
theorem switch_sized {d : SimParser} (h : d.Sized) (b : UInt8) :
    (d.switch b).1.Sized ∧ ∀ p ∈ (d.switch b).2.filterMap SimCall.tx?, Sendable p := by
  have hother : ∀ d' : SimParser, d'.state ≠ .payload → d'.Sized :=
    fun _ hne hstate ↦ absurd hstate hne
  unfold SimParser.switch
  cases hstate : d.state with
  | tag =>
      change (d.onTag b).1.Sized ∧ _
      unfold SimParser.onTag
      dsimp only
      repeat' split
      all_goals exact ⟨hother _ (by simp [hstate]), by simp [SimCall.tx?]⟩
  | txMagic =>
      refine ⟨hother _ ?_, List.forall_mem_nil _⟩
      change (if b = tagX then State.lenLo else State.tag) ≠ .payload
      split <;> decide
  | lenLo =>
      refine ⟨hother _ ?_, List.forall_mem_nil _⟩
      change State.lenHi ≠ .payload
      decide
  | setWindow =>
      change (d.onSetWindow b).1.Sized ∧ _
      unfold SimParser.onSetWindow
      dsimp only
      split
      · exact ⟨hother _ nofun, by simp [SimCall.tx?]⟩
      · exact ⟨hother _ (by simp [hstate]), List.forall_mem_nil _⟩
  | lenHi =>
      change (d.onLenHi b).1.Sized ∧ _
      unfold SimParser.onLenHi
      dsimp only
      split
      · split
        · exact ⟨hother _ nofun, by simp [SimCall.tx?]⟩
        · exact ⟨hother _ nofun, List.forall_mem_nil _⟩
      · split
        · split
          · exact ⟨hother _ nofun, by simp [SimCall.tx?]⟩
          next hlen =>
            refine ⟨fun _ ↦ ?_, List.forall_mem_nil _⟩
            dsimp only
            omega
        · exact ⟨hother _ nofun, List.forall_mem_nil _⟩
  | config =>
      change (d.onConfig b).1.Sized ∧ _
      unfold SimParser.onConfig
      dsimp only
      split
      · exact ⟨hother _ nofun, by simp [SimCall.tx?]⟩
      · exact ⟨hother _ (by simp [hstate]), List.forall_mem_nil _⟩
  | payload =>
      change (d.onPayload b).1.Sized ∧ _
      unfold SimParser.onPayload
      dsimp only
      split
      next hlen =>
        refine ⟨hother _ nofun, List.forall_mem_singleton.mpr ?_⟩
        rw [Sendable, hlen]
        exact h hstate
      · exact ⟨fun _ ↦ h hstate, List.forall_mem_nil _⟩
  | scanCount =>
      refine ⟨hother _ ?_, List.forall_mem_nil _⟩
      change (if 1 ≤ b ∧ b ≤ 16 then State.scanBody else State.tag) ≠ .payload
      split <;> decide
  | scanBody =>
      change (d.onScanBody b).1.Sized ∧ _
      unfold SimParser.onScanBody
      dsimp only
      split
      · exact ⟨hother _ nofun, by simp [SimCall.tx?]⟩
      · exact ⟨hother _ (by simp [hstate]), List.forall_mem_nil _⟩

theorem parse_sized {d : SimParser} (h : d.Sized) (p : SimPoll) :
    (d.parse p).1.Sized ∧ ∀ q ∈ (d.parse p).2.filterMap SimCall.tx?, Sendable q := by
  have hidle : (d.idleResync p.now).Sized := by
    unfold SimParser.idleResync
    split
    · exact nofun
    · exact h
  unfold SimParser.parse
  cases p.read with
  | nothing => exact ⟨hidle, List.forall_mem_nil _⟩
  | closed arrival => exact ⟨nofun, List.forall_mem_nil _⟩
  | byte b arrival =>
      exact switch_sized (d := { d.idleResync p.now with lastArrival := arrival }) hidle b

/-! ## Turns -/

theorem handleCall_frame (r : SimRig) (c : SimCall) :
    ∃ pending txQ sweep,
      (r.handleCall c).1 = { r with pending := pending, txQ := txQ, sweep := sweep } ∧
        (∀ p ∈ txQ, p ∈ r.txQ ∨ c.tx? = some p) ∧
          ∀ e ∈ (r.handleCall c).2, e.begun? = none ∧ e.packet? = none := by
  cases c with
  | statsFrame | reset | ready | error =>
      exact ⟨_, r.txQ, r.sweep, rfl, fun _ hp ↦ .inl hp, List.forall_mem_nil _⟩
  | handleConfig body =>
      obtain ⟨sweep, hsweep⟩ := handleConfig_cases r body
      have hcall : r.handleCall (.handleConfig body) =
          ({ r.handleConfig body with pending := (r.handleConfig body).pending ++ [.ready] }, []) :=
        rfl
      rw [hcall, hsweep]
      exact ⟨_, r.txQ, sweep, rfl, fun _ hp ↦ .inl hp, List.forall_mem_nil _⟩
  | runFakeSweep freqs count dwell =>
      obtain ⟨sweep, hsweep⟩ := runFakeSweep_cases r ⟨(freqs.headD 0).toNat, 0, count.toNat⟩
      exact ⟨r.pending, r.txQ, sweep, hsweep, fun _ hp ↦ .inl hp, List.forall_mem_nil _⟩
  | handleTx payload =>
      rw [SimRig.handleCall]
      split
      · exact ⟨r.pending, r.txQ, r.sweep, rfl, fun _ hp ↦ .inl hp,
          List.forall_mem_singleton.mpr ⟨rfl, rfl⟩⟩
      · refine ⟨_, _, r.sweep, rfl, fun p hp ↦ ?_, List.forall_mem_singleton.mpr ⟨rfl, rfl⟩⟩
        rcases List.mem_append.mp hp with hp | hp
        · exact .inl hp
        · cases List.mem_singleton.mp hp
          exact .inr rfl

theorem run_handleCall_frame (r : SimRig) (calls : List SimCall) :
    ∃ pending txQ sweep,
      (run SimRig.handleCall r calls).1 =
        { r with pending := pending, txQ := txQ, sweep := sweep } ∧
        (∀ p ∈ txQ, p ∈ r.txQ ∨ p ∈ calls.filterMap SimCall.tx?) ∧
          ∀ e ∈ (run SimRig.handleCall r calls).2, e.begun? = none ∧ e.packet? = none := by
  induction calls generalizing r with
  | nil => exact ⟨_, _, _, rfl, fun _ hp ↦ .inl hp, List.forall_mem_nil _⟩
  | cons c calls ih =>
      obtain ⟨pending, txQ, sweep, hnext, hq, hes⟩ := handleCall_frame r c
      obtain ⟨pending', txQ', sweep', hlast, hq', hes'⟩ := ih (r.handleCall c).1
      refine ⟨pending', txQ', sweep', ?_, fun p hp ↦ ?_, List.forall_mem_append.mpr ⟨hes, hes'⟩⟩
      · rw [run_cons, hlast, hnext]
      rw [hnext] at hq'
      rcases hq' p hp with hp | hp
      · rcases hq p hp with hp | hp
        · exact .inl hp
        · exact .inr (List.mem_filterMap.mpr ⟨c, List.mem_cons_self, hp⟩)
      · obtain ⟨c', hc', hp⟩ := List.mem_filterMap.mp hp
        exact .inr (List.mem_filterMap.mpr ⟨c', List.mem_cons_of_mem c hc', hp⟩)

theorem run_handleCall_sends {r : SimRig} (hr : r.Sound) {calls : List SimCall}
    (hcalls : ∀ p ∈ calls.filterMap SimCall.tx?, Sendable p) :
    Sends r (run SimRig.handleCall r calls) := by
  obtain ⟨pending, txQ, sweep, hnext, hq, hes⟩ := run_handleCall_frame r calls
  obtain ⟨r', es, hrun⟩ : ∃ r' es, run SimRig.handleCall r calls = (r', es) := ⟨_, _, rfl⟩
  rw [hrun] at hnext hes ⊢
  subst hnext
  refine .idle ⟨hr.sized, fun p hp ↦ ?_, hr.bursts, hr.tx, hr.generator⟩ rfl rfl hes
  rcases List.mem_append.mp hp with hp | hp
  · exact hr.owed p (List.mem_append_left _ hp)
  · rcases hq p hp with hold | hnew
    · exact hr.owed p (List.mem_append_right _ hold)
    · exact hcalls p hnew

theorem txTurn_sends {r : SimRig} (hr : r.Sound) (hapart : r.Apart .tx) : Sends r r.txTurn := by
  unfold SimRig.txTurn
  split
  next htx =>
    split
    · exact .idle hr rfl rfl (List.forall_mem_nil _)
    next payload rest hq =>
      have howed : ({ r with txQ := rest, tx := .airing payload } : SimRig).owed = r.owed := by
        rw [SimRig.owed, SimRig.owed, htx, hq]
        rfl
      have hbursts : ({ r with txQ := rest, tx := .airing payload } : SimRig).bursts =
          r.bursts := by
        rw [SimRig.bursts, SimRig.bursts, htx]
        rfl
      refine .idle ⟨hr.sized, howed ▸ hr.owed, ?_, by simp, hr.generator⟩ hbursts rfl
        (List.forall_mem_nil _)
      rw [hbursts]
      exact hr.bursts
  next payload htx =>
    have hnone : r.bursts = [] := by
      refine hapart ?_
      change r.txTurn.2.filterMap _ ≠ _
      rw [SimRig.txTurn, htx]
      exact List.cons_ne_nil _ _
    have hgenerator : r.generator.burst?.toList = [] := (List.append_eq_nil_iff.mp hnone).2
    have hp : Sendable payload := by
      refine hr.owed payload ?_
      rw [SimRig.owed, htx]
      exact List.mem_cons_self
    have hbursts : ({ r with tx := .echo { payload := payload } } : SimRig).bursts =
        [⟨payload, .load⟩] := by
      rw [SimRig.bursts, hgenerator]
      rfl
    refine .begin ⟨hr.sized, fun p hp ↦ hr.owed p (List.mem_append_right _ hp), .inr ?_, by simp,
      hr.generator⟩ hnone hbursts rfl hp rfl rfl
    exact ⟨_, hbursts, hp, trivial⟩
  next b htx =>
    obtain ⟨id, next, es, hturn⟩ : ∃ id next es, b.turn r.burstId = (id, next, es) :=
      ⟨_, _, _, rfl⟩
    obtain ⟨hbursts, hb, hnone⟩ := hr.echo htx
    have howed : ∀ p ∈ r.txQ, Sendable p := fun p hp ↦ hr.owed p (List.mem_append_right _ hp)
    rw [hturn]
    have hfits := (turn_left hb).1
    rw [hturn] at hfits
    cases next with
    | on b' =>
        have hbursts' : ({ r with burstId := id, tx := .echo b' } : SimRig).bursts = [b'] := by
          rw [SimRig.bursts, hnone]
          rfl
        refine Sends.turn ⟨hr.sized, howed, .inr ⟨b', hbursts', hfits⟩, by simp, hr.generator⟩
          hbursts hb hturn ?_
        rw [SimRig.left, hbursts']
        rfl
    | done =>
        have hbursts' : ({ r with burstId := id, tx := .poll } : SimRig).bursts = [] := by
          rw [SimRig.bursts, hnone]
          rfl
        refine Sends.turn ⟨hr.sized, howed, .inl hbursts', by simp, hr.generator⟩
          hbursts hb hturn ?_
        rw [SimRig.left, hbursts']
        rfl
    | dead => exact hfits.elim
  next htx => exact absurd htx hr.tx

theorem sendable_generatorPayload : Sendable generatorPayload := by
  have hlen : generatorPayload.length = 4 + (300 - 4) := by
    rw [generatorPayload, List.length_append, List.length_replicate]
    rfl
  rw [Sendable, hlen]
  decide

theorem generatorTurn_sends {r : SimRig} (hr : r.Sound) (hapart : r.Apart .generator) :
    Sends r r.generatorTurn := by
  unfold SimRig.generatorTurn
  split
  next hgenerator =>
    split
    next hstart =>
      have hnone : r.bursts = [] := by
        refine hapart ?_
        change r.generatorTurn.2.filterMap _ ≠ _
        rw [SimRig.generatorTurn, hgenerator]
        dsimp only
        rw [if_pos hstart]
        exact List.cons_ne_nil _ _
      have htx : r.tx.burst?.toList = [] := (List.append_eq_nil_iff.mp hnone).1
      have hp := sendable_generatorPayload
      generalize generatorPayload = payload at hp ⊢
      have hbursts : ({ r with generator := .burst { payload := payload } } : SimRig).bursts =
          [⟨payload, .load⟩] := by
        rw [SimRig.bursts, htx]
        rfl
      refine .begin ⟨hr.sized, hr.owed, .inr ⟨_, hbursts, hp, trivial⟩, hr.tx, nofun⟩ hnone hbursts
        rfl hp rfl rfl
    · exact .idle hr rfl rfl (List.forall_mem_nil _)
  next b hgenerator =>
    obtain ⟨id, next, es, hturn⟩ : ∃ id next es, b.turn r.burstId = (id, next, es) :=
      ⟨_, _, _, rfl⟩
    obtain ⟨hbursts, hb, hnone⟩ := hr.generated hgenerator
    have hfits := (turn_left hb).1
    rw [hturn] at hfits ⊢
    cases next with
    | on b' =>
        have hbursts' : ({ r with burstId := id, generator := .burst b' } : SimRig).bursts =
            [b'] := by
          rw [SimRig.bursts, hnone]
          rfl
        refine Sends.turn ⟨hr.sized, hr.owed, .inr ⟨b', hbursts', hfits⟩, hr.tx, nofun⟩ hbursts hb
          hturn ?_
        rw [SimRig.left, hbursts']
        rfl
    | done =>
        have hbursts' : ({ r with burstId := id, generator := .check } : SimRig).bursts = [] := by
          rw [SimRig.bursts, hnone]
          rfl
        refine Sends.turn ⟨hr.sized, hr.owed, .inl hbursts', hr.tx, nofun⟩ hbursts hb hturn ?_
        rw [SimRig.left, hbursts']
        rfl
    | dead => exact hfits.elim
  next hgenerator => exact absurd hgenerator hr.generator

theorem sweepTurn_sends {r : SimRig} (hr : r.Sound) : Sends r r.sweepTurn := by
  have hidle : ∀ mode sweep es, (∀ e ∈ es, e.begun? = none ∧ e.packet? = none) →
      Sends r ({ r with mode := mode, sweep := sweep }, es) := fun mode sweep es hes ↦
    .idle ⟨hr.sized, hr.owed, hr.bursts, hr.tx, hr.generator⟩ rfl rfl hes
  unfold SimRig.sweepTurn
  split
  · exact hidle .scan _ [] (List.forall_mem_nil _)
  · split
    · exact hidle r.mode _ [] (List.forall_mem_nil _)
    · exact hidle r.mode _ _ (List.forall_mem_singleton.mpr ⟨rfl, rfl⟩)
  · exact hidle .rx _ [] (List.forall_mem_nil _)
  · exact hidle r.mode _ [] (List.forall_mem_nil _)
  · exact hidle r.mode r.sweep [] (List.forall_mem_nil _)
  · exact hidle r.mode r.sweep [] (List.forall_mem_nil _)

theorem simTurn_sends {r : SimRig} (hr : r.Sound) {i : SimTurn} (hapart : r.Apart i) :
    Sends r (simTurn r i) := by
  cases i with
  | poll p =>
      rw [simTurn]
      split
      · obtain ⟨hsized, hcalls⟩ := parse_sized hr.sized p
        have hr' : ({ r with parser := (r.parser.parse p).1 } : SimRig).Sound :=
          ⟨hsized, hr.owed, hr.bursts, hr.tx, hr.generator⟩
        have hread : Sends r ({ r with parser := (r.parser.parse p).1 }, [.read p]) :=
          .idle hr' rfl rfl (List.forall_mem_singleton.mpr ⟨rfl, rfl⟩)
        exact hread.trans (run_handleCall_sends hr' hcalls)
      · exact .idle hr rfl rfl (List.forall_mem_nil _)
  | say =>
      rw [simTurn]
      split
      · exact .idle hr rfl rfl (List.forall_mem_nil _)
      · exact .idle ⟨hr.sized, hr.owed, hr.bursts, hr.tx, hr.generator⟩ rfl rfl
          (List.forall_mem_singleton.mpr ⟨rfl, rfl⟩)
  | tx => exact txTurn_sends hr hapart
  | generator => exact generatorTurn_sends hr hapart
  | sweep => exact sweepTurn_sends hr

theorem run_simTurn_sends {r : SimRig} (hr : r.Sound) {turns : List SimTurn}
    (hapart : Along simTurn SimRig.Apart r turns) : Sends r (run simTurn r turns) := by
  induction turns generalizing r with
  | nil => exact .idle hr rfl rfl (List.forall_mem_nil _)
  | cons i turns ih =>
      have hi := simTurn_sends hr hapart.1
      exact hi.trans (ih hi.sound hapart.2)

/-! ## Without the generator -/

/-- The generator is off, and in no burst. -/
structure SimRig.Off (r : SimRig) : Prop where
  every : r.every = 0
  generator : r.generator = .check

theorem generatorTurn_off {r : SimRig} (hr : r.Off) : r.generatorTurn = (r, []) := by
  rw [SimRig.generatorTurn, hr.generator]
  dsimp only
  rw [hr.every]
  exact if_neg fun h ↦ absurd h.1 (lt_irrefl 0)

theorem simTurn_off {r : SimRig} (hr : r.Off) (i : SimTurn) :
    (simTurn r i).1.Off ∧ r.Apart i := by
  have hsame : ∀ {es : List SimEvent}, (∀ e ∈ es, e.begun? = none) →
      es.filterMap SimEvent.begun? ≠ [] → r.bursts = [] :=
    fun hes hbegun ↦ absurd (List.filterMap_eq_nil_iff.mpr hes) hbegun
  unfold SimRig.Apart
  cases i with
  | poll p =>
      rw [simTurn]
      split
      · obtain ⟨pending, txQ, sweep, hnext, -, hes⟩ :=
          run_handleCall_frame { r with parser := (r.parser.parse p).1 } (r.parser.parse p).2
        refine ⟨?_, hsame (List.forall_mem_cons.mpr ⟨rfl, fun e he ↦ (hes e he).1⟩)⟩
        exact hnext ▸ ⟨hr.every, hr.generator⟩
      · exact ⟨hr, hsame (List.forall_mem_nil _)⟩
  | say =>
      rw [simTurn]
      split
      · exact ⟨hr, hsame (List.forall_mem_nil _)⟩
      · exact ⟨⟨hr.every, hr.generator⟩, hsame (List.forall_mem_singleton.mpr rfl)⟩
  | tx =>
      change r.txTurn.1.Off ∧ (r.txTurn.2.filterMap SimEvent.begun? ≠ [] → _)
      unfold SimRig.txTurn
      split
      · split
        · exact ⟨hr, hsame (List.forall_mem_nil _)⟩
        · exact ⟨⟨hr.every, hr.generator⟩, hsame (List.forall_mem_nil _)⟩
      next payload htx =>
        refine ⟨⟨hr.every, hr.generator⟩, fun _ ↦ ?_⟩
        rw [SimRig.bursts, htx, hr.generator]
        rfl
      next b _ =>
        refine ⟨⟨hr.every, hr.generator⟩, hsame fun e he ↦ ?_⟩
        obtain ⟨p, rfl⟩ := turn_packets _ _ _ he
        rfl
      · exact ⟨hr, hsame (List.forall_mem_nil _)⟩
  | generator =>
      change r.generatorTurn.1.Off ∧ (r.generatorTurn.2.filterMap SimEvent.begun? ≠ [] → _)
      rw [generatorTurn_off hr]
      exact ⟨hr, hsame (List.forall_mem_nil _)⟩
  | sweep =>
      change r.sweepTurn.1.Off ∧ (r.sweepTurn.2.filterMap SimEvent.begun? ≠ [] → _)
      unfold SimRig.sweepTurn
      split
      · exact ⟨⟨hr.every, hr.generator⟩, hsame (List.forall_mem_nil _)⟩
      · split
        · exact ⟨⟨hr.every, hr.generator⟩, hsame (List.forall_mem_nil _)⟩
        · exact ⟨⟨hr.every, hr.generator⟩, hsame (List.forall_mem_singleton.mpr rfl)⟩
      all_goals exact ⟨⟨hr.every, hr.generator⟩, hsame (List.forall_mem_nil _)⟩

theorem run_apart_of_off {r : SimRig} (hr : r.Off) (turns : List SimTurn) :
    Along simTurn SimRig.Apart r turns :=
  Along.of_invariant (c := fun _ _ ↦ True) (fun _ i hr _ ↦ (simTurn_off hr i).1)
    (fun _ i hr _ ↦ (simTurn_off hr i).2) hr (Along.of_forall (fun _ _ _ ↦ trivial) r)

/-- Two frames, and the echoes of both. -/
def echoTurns : List SimTurn :=
  [tagT, tagX, 1, 0, 0x41, tagT, tagX, 1, 0, 0x42].flatMap (fun b ↦ [.poll ⟨0, .byte b 0⟩, .say]) ++
    List.replicate 12 .tx

end RadioService.Serial
